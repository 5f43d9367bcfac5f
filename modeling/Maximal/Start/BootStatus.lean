import Maximal.Live.Supervisor
import Mathlib.Data.List.TakeWhile

/-!
# What a sidecar tells its supervisor

A sidecar announces on its standard output what it is doing and, once it listens, where. The
supervisor reads the same lines back, of engines older and newer than itself, however the output
is cut on its way.

## Main definitions

- `emitBootStatus`, `emitReadyLine`, `emitQuitRequest`, `emitUpdateRequest`
- `parseBootStatus` — the message of a line
- `Announcement` — the ready line of an engine of any version

## Main results

- `parseReadyLine_announcement` — the payload of an announcement is read back
- `supervisor_reads_boot` — so are the messages before it, and how the wait ends
-/

namespace Maximal.Start

open Js Live

/-! ## Writing -/

def BOOT_STATUS_MARKER : List Char := "@@MAXIMAL_STATUS@@".toList

def QUIT_REQUEST_MARKER : List Char := "@@MAXIMAL_QUIT@@".toList

def UPDATE_REQUEST_MARKER : List Char := "@@MAXIMAL_UPDATE@@".toList

def READY_LINE_VERSION : ℕ := 1

def Port := {port : ℕ // port ≤ 65535}

def Pid := {pid : ℤ // -maxSafeInteger ≤ pid ∧ pid ≤ maxSafeInteger}

structure ReadyLine where
  v : ℕ
  controlPort : Port
  proxyPort : Port
  pid : Pid
  v_pos : 1 ≤ v
  v_le : v ≤ maxSafeInteger

def Port.toJson (port : Port) : Json := .number (.ofNat port.val)

def Pid.toJson (pid : Pid) : Json := .number (.ofInt pid.val)

def ReadyLine.fields (ready : ReadyLine) : List (String × Json) :=
  [("v", .number (.ofNat ready.v)), ("controlPort", ready.controlPort.toJson),
    ("proxyPort", ready.proxyPort.toJson), ("pid", ready.pid.toJson)]

/-- `MAXIMAL_SIDECAR_PARENT_PID` is in the environment and not empty. -/
def isSupervised (parentPid : Option String) : Bool := parentPid.any (· ≠ "")

def emitBootStatus (parentPid : Option String) (message : List Char) : List Char :=
  if isSupervised parentPid then BOOT_STATUS_MARKER ++ ' ' :: message ++ ['\n'] else []

def readyText (payload : Json) : List Char :=
  READY_MARKER ++ ' ' :: Json.stringifyChars payload

def emitReadyLine (parentPid : Option String) (ready : ReadyLine) : Bool × List Char :=
  if isSupervised parentPid then (true, readyText (.object ready.fields) ++ ['\n'])
  else (false, [])

def emitRequest (marker : List Char) (parentPid : Option String) : Bool × List Char :=
  if isSupervised parentPid then (true, marker ++ ['\n']) else (false, [])

def emitQuitRequest : Option String → Bool × List Char := emitRequest QUIT_REQUEST_MARKER

def emitUpdateRequest : Option String → Bool × List Char := emitRequest UPDATE_REQUEST_MARKER

/-! ## Reading -/

/-- `line.replace(/\r?\n$/u, "")`. -/
def withoutTerminator (line : List Char) : List Char :=
  if line.getLast? = some '\n' then
    if line.dropLast.getLast? = some '\r' then line.dropLast.dropLast else line.dropLast
  else line

def parseBootStatus (line : List Char) : Option (List Char) :=
  if (BOOT_STATUS_MARKER ++ [' ']).isPrefixOf (withoutTerminator line) then
    some ((withoutTerminator line).drop (BOOT_STATUS_MARKER.length + 1))
  else none

/-- An empty message is one. -/
example : parseBootStatus "@@MAXIMAL_STATUS@@ \r\n".toList = some [] := by decide

/-- What `onLine` shows when it hands each line to `parseBootStatus`. -/
def relayed (calls : List (List Char)) : List (List Char) := calls.filterMap parseBootStatus

/-! ## Ready lines of all versions -/

/-- A ready line as an engine writes it. -/
inductive Announcement where
  /-- One listener served both planes. -/
  | v0 (port : Port) (pid : Pid)
  /-- A newer engine adds fields. -/
  | current (ready : ReadyLine) (added : List (String × Json))

namespace Announcement

def payload : Announcement → Json
  | .v0 port pid => .object [("port", port.toJson), ("pid", pid.toJson)]
  | .current ready added => .object (ready.fields ++ added)

/-- No key comes twice. -/
def IsProper : Announcement → Prop
  | .v0 _ _ => True
  | .current ready added => ((ready.fields ++ added).map Prod.fst).Nodup

def parsed : Announcement → ParsedReadyLine
  | .v0 port pid => ⟨.ofNat 0, .ofNat port.val, .ofNat port.val, .ofInt pid.val⟩
  | .current ready _ =>
    ⟨.ofNat ready.v, .ofNat ready.controlPort.val, .ofNat ready.proxyPort.val,
      .ofInt ready.pid.val⟩

end Announcement

/-! ## The payload -/

theorem isPort_port (port : Port) : isPort (.ofNat port.val) = true := by
  simp [isPort, Config.isIntBetween, Number.ofNat, port.property]

theorem isPid_pid (pid : Pid) : isPid (.ofInt pid.val) = true := by
  simp [isPid, Config.isIntBetween, Number.ofInt, pid.property]

theorem reread_port (port : Port) : Json.reread port.toJson = port.toJson := by
  have hport := port.property
  exact congrArg Json.number (Number.reread_ofInt (by omega))

theorem reread_pid (pid : Pid) : Json.reread pid.toJson = pid.toJson := by
  have hpid := pid.property
  simp only [maxSafeInteger] at hpid
  exact congrArg Json.number (Number.reread_ofInt (by omega))

theorem ReadyLine.rereadFields_fields (ready : ReadyLine) (added : List (String × Json)) :
    Json.rereadFields (ready.fields ++ added) = ready.fields ++ Json.rereadFields added := by
  have hv : Json.reread (.number (.ofNat ready.v)) = .number (.ofNat ready.v) := by
    have hle := ready.v_le
    simp only [maxSafeInteger] at hle
    exact congrArg Json.number (Number.reread_ofInt (by omega))
  simp only [ReadyLine.fields, List.cons_append, List.nil_append, Json.rereadFields, hv,
    reread_port, reread_pid]

/-- Fields that a newer engine adds are not looked at. -/
theorem readyLineSchema_fields (ready : ReadyLine) (added more : List (String × Json)) :
    readyLineSchema (.object (ready.fields ++ more)) =
      some (Announcement.current ready added).parsed := by
  have hv : Config.isIntBetween 1 maxSafeInteger (.ofNat ready.v) = true := by
    simp [Config.isIntBetween, Number.ofNat, ready.v_pos, ready.v_le]
  have hports := And.intro (isPort_port ready.controlPort) (isPort_port ready.proxyPort)
  change (if _ then some _ else none) = _
  rw [if_pos (by rw [hv, hports.1, hports.2, isPid_pid]; rfl)]
  rfl

theorem anyReadyLineSchema_payload {announcement : Announcement} (h : announcement.IsProper) :
    anyReadyLineSchema (Json.reread announcement.payload) = some announcement.parsed := by
  cases announcement with
  | v0 port pid =>
    have hnodup : (["port", "pid"] : List String).Nodup := by decide
    have hreread : Json.reread (Announcement.v0 port pid).payload =
        .object [("port", port.toJson), ("pid", pid.toJson)] := by
      simp only [Announcement.payload, Json.reread, Json.rereadFields, reread_port, reread_pid]
      rw [Json.collect_eq (by exact hnodup)]
    rw [hreread, anyReadyLineSchema]
    change (none : Option ParsedReadyLine).or (if _ then some _ else none) = _
    rw [if_pos (by rw [isPort_port, isPid_pid]; rfl)]
    rfl
  | current ready added =>
    have hreread : Json.reread (Announcement.current ready added).payload =
        .object (ready.fields ++ Json.rereadFields added) := by
      have hkeys : ((Json.rereadFields (ready.fields ++ added)).map Prod.fst).Nodup := by
        rw [Json.keys_rereadFields]
        exact h
      rw [Announcement.payload, Json.reread, Json.collect_eq hkeys, ready.rereadFields_fields]
    rw [hreread, anyReadyLineSchema, readyLineSchema_fields ready added]
    rfl

/-! ## Lines -/

theorem isPrefixOf_marker (marker cs : List Char) :
    (marker ++ [' ']).isPrefixOf (marker ++ ' ' :: cs) = true := by
  rw [List.isPrefixOf_iff_prefix]
  exact ⟨cs, by rw [List.append_assoc]; rfl⟩

theorem drop_marker (marker cs : List Char) :
    (marker ++ ' ' :: cs).drop (marker.length + 1) = cs := by
  simp [List.drop_append]

theorem dropWhile_marker {line : List Char} (h : line.head? = some '@') :
    line.dropWhile isWhite = line :=
  dropWhile_of_head fun c hc => by
    obtain rfl := Option.some.inj (h.symm.trans hc)
    decide

/-- A line that starts with a marker is trimmed at its end only. -/
theorem trimChars_of_marker {line : List Char} (h : line.head? = some '@') :
    trimChars line <+: line := by
  refine ⟨(line.reverse.takeWhile isWhite).reverse, ?_⟩
  rw [trimChars, dropWhile_marker h, ← List.reverse_append, List.takeWhile_append_dropWhile,
    List.reverse_reverse]

theorem isSaid_of_marker {line : List Char} (h : line.head? = some '@') : isSaid line = true := by
  rw [isSaid, Bool.not_eq_true', trimChars, dropWhile_marker h, List.isEmpty_eq_false_iff]
  intro hnil
  have hwhite := List.dropWhile_eq_nil_iff.1 (List.reverse_eq_nil_iff.1 hnil) '@'
    (List.mem_reverse.2 (List.mem_of_mem_head? h))
  exact absurd hwhite (by decide)

theorem head_marker {marker : List Char} (h : marker.head? = some '@') (rest : List Char) :
    (marker ++ rest).head? = some '@' := by
  rw [List.head?_append, h]
  rfl

/-- A line with another marker is no ready line. -/
theorem parseReadyLine_of_marker {line : List Char} (hline : line.head? = some '@')
    (h : ¬ (READY_MARKER ++ [' ']) <+: line) : parseReadyLine line = none := by
  rw [parseReadyLine]
  exact if_neg fun hprefix =>
    h ((List.isPrefixOf_iff_prefix.1 hprefix).trans (trimChars_of_marker hline))

theorem head_READY_MARKER : READY_MARKER.head? = some '@' := by decide +kernel

theorem head_BOOT_STATUS_MARKER : BOOT_STATUS_MARKER.head? = some '@' := by decide +kernel

/-- A ready line is read as its payload. -/
theorem parseReadyLine_readyText (fields : List (String × Json)) :
    parseReadyLine (readyText (.object fields)) =
      anyReadyLineSchema (Json.reread (.object fields)) := by
  have hlast : (readyText (.object fields)).getLast? = some '\x7d' := by
    rw [readyText, Json.stringifyChars, List.append_cons, List.getLast?_append, List.getLast?_cons,
      List.getLast?_append]
    rfl
  have htrim : trimChars (readyText (.object fields)) = readyText (.object fields) :=
    trimChars_of_ends
      (fun c hc => by
        obtain rfl := Option.some.inj ((head_marker head_READY_MARKER _).symm.trans hc)
        decide)
      fun c hc => by
        obtain rfl := Option.some.inj (hlast.symm.trans hc)
        decide
  have hparse := Json.parse_stringify_reread (.object fields)
  rw [Json.stringify] at hparse
  rw [parseReadyLine, htrim, readyText, drop_marker, hparse]
  exact if_pos (isPrefixOf_marker _ _)

theorem parseReadyLine_announcement {announcement : Announcement} (h : announcement.IsProper) :
    parseReadyLine (readyText announcement.payload) = some announcement.parsed := by
  rw [← anyReadyLineSchema_payload h]
  cases announcement with
  | v0 port pid => exact parseReadyLine_readyText _
  | current ready added => exact parseReadyLine_readyText _

theorem parseReadyLine_status (message : List Char) :
    parseReadyLine (BOOT_STATUS_MARKER ++ ' ' :: message) = none := by
  refine parseReadyLine_of_marker (head_marker head_BOOT_STATUS_MARKER _) fun h => ?_
  -- the two markers are of one length and differ
  have hlength : (READY_MARKER ++ [' ']).length = BOOT_STATUS_MARKER.length := by decide +kernel
  have hstatus : BOOT_STATUS_MARKER <+: BOOT_STATUS_MARKER ++ ' ' :: message :=
    List.prefix_append _ _
  have heq := (List.prefix_of_prefix_length_le h hstatus hlength.le).eq_of_length hlength
  exact absurd heq (by decide +kernel)

/-! ## Messages -/

theorem withoutTerminator_of_line {line : List Char} (h : '\n' ∉ line) :
    withoutTerminator line = line :=
  if_neg fun hlast => h (List.mem_of_getLast? hlast)

theorem newline_notMem_status {message : List Char} (h : '\n' ∉ message) :
    '\n' ∉ BOOT_STATUS_MARKER ++ ' ' :: message := by
  rw [List.mem_append, List.mem_cons]
  rintro (hmarker | hspace | hmessage)
  · exact absurd hmarker (by decide +kernel)
  · cases hspace
  · exact h hmessage

theorem parseBootStatus_status {message : List Char} (h : '\n' ∉ message) :
    parseBootStatus (BOOT_STATUS_MARKER ++ ' ' :: message) = some message := by
  rw [parseBootStatus, withoutTerminator_of_line (newline_notMem_status h), drop_marker]
  exact if_pos (isPrefixOf_marker _ _)

theorem parseBootStatus_of_marker {line : List Char} (hline : '\n' ∉ line)
    (h : ¬ (BOOT_STATUS_MARKER ++ [' ']) <+: line) : parseBootStatus line = none := by
  rw [parseBootStatus, withoutTerminator_of_line hline]
  exact if_neg fun hprefix => h (List.isPrefixOf_iff_prefix.1 hprefix)

theorem isSaid_of_parseBootStatus {line message : List Char}
    (h : parseBootStatus line = some message) : isSaid line = true := by
  rw [parseBootStatus, Option.ite_none_right_eq_some] at h
  have hline : withoutTerminator line <+: line := by
    rw [withoutTerminator]
    split_ifs
    · exact (List.dropLast_prefix _).trans (List.dropLast_prefix _)
    · exact List.dropLast_prefix _
    · exact List.prefix_rfl
  obtain ⟨rest, rfl⟩ := (List.isPrefixOf_iff_prefix.1 h.1).trans hline
  rw [List.append_assoc]
  exact isSaid_of_marker (head_marker head_BOOT_STATUS_MARKER _)

/-- A message is shown whether or not its line is tested for white space before. -/
theorem relayed_filter_isSaid (lines : List (List Char)) :
    relayed (lines.filter isSaid) = relayed lines := by
  rw [relayed, relayed, List.filterMap_filter]
  refine List.filterMap_congr fun line _ => ?_
  cases hmessage : parseBootStatus line with
  | none => split <;> rfl
  | some message => rw [if_pos (isSaid_of_parseBootStatus hmessage)]

/-! ## The output -/

/-- What an engine writes. -/
inductive Write where
  /-- A line of another writer. -/
  | line (text : List Char)
  | status (message : List Char)
  | ready (announcement : Announcement)
  | quitRequest
  | updateRequest

namespace Write

/-- The text on the standard output. -/
def text (parentPid : Option String) : Write → List Char
  | .line text => text ++ ['\n']
  | .status message => emitBootStatus parentPid message
  | .ready announcement =>
    if isSupervised parentPid then readyText announcement.payload ++ ['\n'] else []
  | .quitRequest => (emitQuitRequest parentPid).2
  | .updateRequest => (emitUpdateRequest parentPid).2

/-- Other writers write lines, and none that starts with a marker or a byte order mark. -/
def IsPlain : Write → Prop
  | .line text =>
    '\n' ∉ text ∧ (∀ c ∈ text.head?, c.toNat ≠ 0xFEFF) ∧ parseReadyLine text = none ∧
      parseBootStatus text = none
  | .status message => '\n' ∉ message
  | .ready announcement => announcement.IsProper
  | _ => True

def announcement : Write → Option Announcement
  | .ready announcement => some announcement
  | _ => none

def message : Write → Option (List Char)
  | .status message => some message
  | _ => none

/-- The line that a supervised engine writes. -/
def said : Write → List Char
  | .line text => text
  | .status message => BOOT_STATUS_MARKER ++ ' ' :: message
  | .ready announcement => readyText announcement.payload
  | .quitRequest => QUIT_REQUEST_MARKER
  | .updateRequest => UPDATE_REQUEST_MARKER

def isMarker : Write → Bool
  | .line _ => false
  | _ => true

end Write

def output (parentPid : Option String) (writes : List Write) : List Char :=
  writes.flatMap (Write.text parentPid)

/-- The writes that come out. -/
def written (parentPid : Option String) (writes : List Write) : List Write :=
  writes.filter fun write => isSupervised parentPid || !write.isMarker

theorem output_eq (parentPid : Option String) (writes : List Write) :
    output parentPid writes = Cuts.joined ['\n'] ((written parentPid writes).map Write.said) := by
  induction writes with
  | nil => rfl
  | cons write writes ih =>
    rw [output, List.flatMap_cons, ← output, ih]
    cases h : isSupervised parentPid <;> cases write <;>
      simp [written, Write.text, Write.said, Write.isMarker, Cuts.joined, emitBootStatus,
        emitQuitRequest, emitUpdateRequest, emitRequest, h]

theorem written_of_not_supervised {parentPid : Option String} (h : isSupervised parentPid = false)
    (writes : List Write) : ∀ write ∈ written parentPid writes, write.isMarker = false := by
  intro write hwrite
  have hkept := (List.mem_filter.1 hwrite).2
  rw [h, Bool.false_or, Bool.not_eq_true'] at hkept
  exact hkept

theorem newline_notMem_readyText (payload : Json) : '\n' ∉ readyText payload := by
  rw [readyText, List.mem_append, List.mem_cons]
  rintro (h | h | h)
  · exact absurd h (by decide +kernel)
  · cases h
  · have hprintable := Json.printable_stringifyChars payload '\n' h
    exact absurd hprintable (by decide)

theorem newline_notMem_said {write : Write} (h : write.IsPlain) : '\n' ∉ write.said := by
  cases write with
  | line text => exact h.1
  | status message => exact newline_notMem_status h
  | ready announcement => exact newline_notMem_readyText _
  | quitRequest => rw [Write.said]; decide +kernel
  | updateRequest => rw [Write.said]; decide +kernel

theorem parseReadyLine_said {write : Write} (h : write.IsPlain) :
    parseReadyLine write.said = write.announcement.map Announcement.parsed := by
  cases write with
  | line text => exact h.2.2.1
  | status message => exact parseReadyLine_status message
  | ready announcement => exact parseReadyLine_announcement h
  | quitRequest => rw [Write.said]; decide +kernel
  | updateRequest => rw [Write.said]; decide +kernel

theorem parseBootStatus_said {write : Write} (h : write.IsPlain) :
    parseBootStatus write.said = write.message := by
  have hline := newline_notMem_said h
  cases write with
  | line text => exact h.2.2.2
  | status message => exact parseBootStatus_status h
  | ready announcement =>
    refine parseBootStatus_of_marker hline fun hprefix => ?_
    have hready : READY_MARKER <+: readyText announcement.payload := List.prefix_append _ _
    have hshort := List.prefix_of_prefix_length_le hready hprefix (by decide +kernel)
    exact absurd hshort (by decide +kernel)
  | quitRequest => rw [Write.said]; decide +kernel
  | updateRequest => rw [Write.said]; decide +kernel

/-- No line starts with a byte order mark. -/
theorem head_said {write : Write} (h : write.IsPlain) :
    ∀ c ∈ (write.said ++ ['\n']).head?, c.toNat ≠ 0xFEFF := by
  have hmarker : ∀ {marker : List Char} (rest : List Char), marker.head? = some '@' →
      ∀ c ∈ (marker ++ rest).head?, c.toNat ≠ 0xFEFF := by
    intro marker rest hhead c hc
    obtain rfl := Option.some.inj ((head_marker hhead rest).symm.trans hc)
    decide
  cases write with
  | line text =>
    intro c hc
    cases htext : text with
    | nil =>
      rw [Write.said, htext] at hc
      obtain rfl := Option.some.inj hc
      decide
    | cons d rest =>
      rw [Write.said, htext] at hc
      exact h.2.1 c (by rw [htext]; exact hc)
  | status message =>
    rw [Write.said, List.append_assoc]
    exact hmarker _ head_BOOT_STATUS_MARKER
  | ready announcement =>
    rw [Write.said, readyText, List.append_assoc]
    exact hmarker _ head_READY_MARKER
  | quitRequest => exact hmarker _ (by rw [Write.said]; decide +kernel)
  | updateRequest => exact hmarker _ (by rw [Write.said]; decide +kernel)

theorem stripBom_joined {lines : List (List Char)}
    (h : ∀ line ∈ lines, ∀ c ∈ (line ++ ['\n']).head?, c.toNat ≠ 0xFEFF) :
    Utf8.TextDecoder.stripBom (Cuts.joined ['\n'] lines) = Cuts.joined ['\n'] lines := by
  cases lines with
  | nil => rfl
  | cons line lines =>
    have hline := h line List.mem_cons_self
    rw [Cuts.joined, List.flatMap_cons, ← Cuts.joined]
    cases hfirst : line ++ ['\n'] with
    | nil => exact absurd hfirst (by simp)
    | cons c rest => exact if_neg (hline c (by rw [hfirst]; rfl))

theorem forall_mem_said {parentPid : Option String} {writes : List Write}
    {property : List Char → Prop} (h : ∀ write ∈ writes, write.IsPlain)
    (hsaid : ∀ write : Write, write.IsPlain → property write.said) :
    ∀ line ∈ (written parentPid writes).map Write.said, property line := by
  intro line hline
  obtain ⟨write, hwrite, rfl⟩ := List.mem_map.1 hline
  exact hsaid write (h write (List.mem_of_mem_filter hwrite))

theorem textOf_output {parentPid : Option String} {writes : List Write}
    (h : ∀ write ∈ writes, write.IsPlain) :
    Live.textOf (Utf8.encode (output parentPid writes)) = output parentPid writes := by
  rw [Live.textOf, Utf8.Decoder.decode_encode, output_eq]
  exact stripBom_joined (forall_mem_said h fun write hwrite => head_said hwrite)

theorem linesOf_output {parentPid : Option String} {writes : List Write}
    (h : ∀ write ∈ writes, write.IsPlain) :
    linesOf (Utf8.encode (output parentPid writes)) =
      (written parentPid writes).map Write.said := by
  rw [linesOf, textOf_output h, output_eq, Cuts.blocks_joined]
  exact forall_mem_said h fun write hwrite => newline_notMem_said hwrite

/-! ## The wait -/

/-- The wait ends with the first ready line that was written. -/
def bootEnd (writes : List Write) : Ended :=
  match writes.findSome? Write.announcement with
  | some announcement => .resolved announcement.parsed
  | none => .exited

/-- The messages before the first ready line. -/
def messagesBefore (writes : List Write) : List (List Char) :=
  (writes.takeWhile fun write => write.announcement.isNone).filterMap Write.message

theorem endOf_said {writes : List Write} (h : ∀ write ∈ writes, write.IsPlain) :
    endOf (writes.map Write.said) = bootEnd writes := by
  have hfind : (writes.map Write.said).findSome? parseReadyLine =
      (writes.findSome? Write.announcement).map Announcement.parsed := by
    induction writes with
    | nil => rfl
    | cons write writes ih =>
      rw [List.map_cons, List.findSome?_cons, List.findSome?_cons,
        parseReadyLine_said (h write List.mem_cons_self)]
      cases write.announcement with
      | none => exact ih fun write' hwrite' => h write' (List.mem_cons_of_mem _ hwrite')
      | some announcement => rfl
  rw [endOf, bootEnd, hfind]
  cases writes.findSome? Write.announcement <;> rfl

theorem bootEnd_of_no_marker {writes : List Write} (h : ∀ write ∈ writes, write.isMarker = false) :
    bootEnd writes = .exited := by
  have hnone : writes.findSome? Write.announcement = none :=
    List.findSome?_eq_none_iff.2 fun write hwrite => by
      cases write with
      | ready announcement => cases h _ hwrite
      | _ => rfl
  rw [bootEnd, hnone]

theorem relayed_saidBefore {writes : List Write} (h : ∀ write ∈ writes, write.IsPlain) :
    relayed (saidBefore (writes.map Write.said)) = messagesBefore writes := by
  rw [saidBefore, relayed_filter_isSaid]
  induction writes with
  | nil => rfl
  | cons write writes ih =>
    have hwrite := h write List.mem_cons_self
    have hrest := ih fun write' hwrite' => h write' (List.mem_cons_of_mem _ hwrite')
    rw [messagesBefore, List.map_cons, List.takeWhile_cons, List.takeWhile_cons,
      parseReadyLine_said hwrite, Option.isNone_map]
    split
    · rw [relayed, List.filterMap_cons, List.filterMap_cons, parseBootStatus_said hwrite,
        ← relayed, hrest, messagesBefore]
    · rfl

/-- However its output is cut, a supervisor that waits for an engine resolves with what the first
ready line says, of whichever version it is, and has relayed the messages before it in order. An
engine that does not know that it is supervised is waited for until it exits. The timer may end
either wait before the ready line is read, with the first of those messages relayed. -/
theorem supervisor_reads_boot {parentPid : Option String} {writes : List Write}
    (hwrites : ∀ write ∈ writes, write.IsPlain) {chunks : List (List ℕ)}
    (hchunks : chunks.flatten = Utf8.encode (output parentPid writes)) :
    ∃ trailing, (awaitReadyLine (chunks.map .bytes)).2 = bootEnd (written parentPid writes) ∧
      relayed (awaitReadyLine (chunks.map .bytes)).1 =
        messagesBefore (written parentPid writes) ++ relayed trailing ∧
      Trails (output parentPid writes) ((written parentPid writes).map Write.said) trailing ∧
      (isSupervised parentPid = false → (awaitReadyLine (chunks.map .bytes)).2 = .exited) ∧
      ∀ read, awaitReadyLine (chunks.map .bytes) (some read) = awaitReadyLine (chunks.map .bytes) ∨
        (awaitReadyLine (chunks.map .bytes) (some read)).2 = .timedOut ∧
          relayed (awaitReadyLine (chunks.map .bytes) (some read)).1 <+:
            messagesBefore (written parentPid writes) := by
  obtain ⟨trailing, hawait, htrails⟩ := awaitReadyLine_bytes chunks
  have hwritten : ∀ write ∈ written parentPid writes, write.IsPlain := fun write hwrite =>
    hwrites write (List.mem_of_mem_filter hwrite)
  have htimer := awaitReadyLine_timer chunks
  rw [hchunks, linesOf_output hwrites] at hawait htrails htimer
  rw [textOf_output hwrites] at htrails
  refine ⟨trailing, ?_, ?_, htrails, fun halone => ?_, fun read => ?_⟩
  · rw [hawait, endOf_said hwritten]
  · rw [hawait, relayed, List.filterMap_append, ← relayed, ← relayed, relayed_saidBefore hwritten]
  · rw [hawait, endOf_said hwritten]
    exact bootEnd_of_no_marker (written_of_not_supervised halone writes)
  · refine (htimer read).imp_right fun ⟨calls, htimed, hcalls⟩ => ?_
    rw [htimed]
    refine ⟨rfl, ?_⟩
    rw [← relayed_saidBefore hwritten]
    exact hcalls.filterMap _

/-- A boot of a supervised engine that adds a field to its ready line. -/
def newerBoot : List Write :=
  [.line "boot".toList, .status "Starting the server…".toList,
    .ready (.current
      ⟨2, ⟨40001, by decide⟩, ⟨4141, by decide⟩, ⟨7, by decide⟩, by decide, by decide⟩
      [("socket", .string "a\nb")]),
    .status "late".toList]

def newerOutput : List ℕ := Utf8.encode (output (some "1") newerBoot)

theorem newerBoot_isPlain : ∀ write ∈ newerBoot, write.IsPlain := by
  have hhead : "boot".toList.head? = some 'b' := by decide +kernel
  have hline : (Write.line "boot".toList).IsPlain := by
    refine ⟨by decide +kernel, fun c hc => ?_, by decide +kernel, by decide +kernel⟩
    obtain rfl := Option.some.inj (hhead.symm.trans hc)
    decide
  intro write hwrite
  simp only [newerBoot, List.mem_cons, List.not_mem_nil, or_false] at hwrite
  obtain rfl | rfl | rfl | rfl := hwrite
  · exact hline
  · show '\n' ∉ "Starting the server…".toList
    decide +kernel
  · show (List.map Prod.fst _).Nodup
    decide +kernel
  · show '\n' ∉ "late".toList
    decide +kernel

/-- The status message is cut within the bytes of its last character. -/
theorem supervisor_reads_boot_newer :
    (awaitReadyLine ([newerOutput.take 44, newerOutput.drop 44].map .bytes)).2 =
      .resolved ⟨.ofNat 2, .ofNat 40001, .ofNat 4141, .ofNat 7⟩ := by
  have hchunks : [newerOutput.take 44, newerOutput.drop 44].flatten = newerOutput := by
    rw [List.flatten_cons, List.flatten_singleton, List.take_append_drop]
  obtain ⟨trailing, hended, -⟩ := supervisor_reads_boot newerBoot_isPlain hchunks
  rw [hended]
  rfl

end Maximal.Start
