import Maximal.Lib.Cuts
import Maximal.Lib.Js.JsonText
import Maximal.Lib.Utf8
import Maximal.Live.Client

/-!
# The live feed as a byte stream

The hub writes a frame as a block of text, and the client takes the blocks off the bytes that arrive.
A text is the list of its characters here.

## Main definitions

- `serializeFrame`, `Frame.text` — a frame as the hub writes it
- `ControlClient.streamOnce` — the client's loop over the chunks of a response
- `ControlClient.receive` — what a frame does to the client
- `Frame.reread` — the frame with the value that is read of its text

## Main results

- `ControlClient.handleBlock_block` — a block does what its frame does
- `ControlClient.streamOnce_frames` — the frames are applied in order, whatever the chunks are
-/

namespace Maximal.Live

open Js

/-! ## Writing -/

def methodForTopic (topic : ControlTopic) : String := "control/" ++ topic.name

/-- The payload of a notification; `params` is left out when it is `undefined`. -/
def framePayload (topic : ControlTopic) (data : Val) : Json :=
  .object ([("jsonrpc", .string "2.0"), ("method", .string (methodForTopic topic))] ++
    (data.map fun data => ("params", data)).toList)

def serializeFrame (topic : ControlTopic) (data : Val) : List Char :=
  "data: ".toList ++ (Json.stringifyChars (framePayload topic data) ++ "\n\n".toList)

def HEARTBEAT_FRAME : List Char := ": keepalive\n\n".toList

def Frame.text : Frame → List Char
  | .heartbeat => HEARTBEAT_FRAME
  | .notification topic params => serializeFrame topic params

/-! ## Reading -/

structure FrameEnvelope where
  method : String
  params : Val

/-- What `frameEnvelopeSchema.parse` returns, if it does not throw. -/
def frameEnvelopeSchema : Json → Option FrameEnvelope
  | .object fields =>
    match fields.lookup "jsonrpc", fields.lookup "method" with
    | some (.string jsonrpc), some (.string method) =>
      if jsonrpc = "2.0" ∧ method ≠ "" then some ⟨method, fields.lookup "params"⟩ else none
    | _, _ => none
  | _ => none

def CONTROL_TOPICS : List ControlTopic :=
  [.snapshot, .auth, .accounts, .apps, .models, .clients, .usage, .config, .boot]

/-- What `streamOnce` throws while it reads. -/
inductive StreamError where
  | syntaxError
  | zodError
  | typeError
  deriving DecidableEq

structure ControlClient where
  state : ControlState
  /-- What a listener was called with. -/
  notified : List ControlState

namespace ControlClient

/-- A step that may throw and leaves the client as it is then. -/
abbrev Run := ExceptT StreamError (StateM ControlClient)

def applyFrame (topic : ControlTopic) (data : Val) : Run Unit := do
  let client ← get
  match Live.applyFrame client.state topic data with
  | .error _ => throw .typeError
  | .ok state => set (⟨state, client.notified ++ [state]⟩ : ControlClient)

/-- The text of the last `data:` line of a block. -/
def dataStr (raw : List Char) : Option (List Char) :=
  (raw.splitOn '\n').foldl
    (fun dataStr line =>
      if [':'].isPrefixOf line then dataStr
      else if "data:".toList.isPrefixOf line then some (trimChars (line.drop "data:".length))
      else dataStr)
    none

def topicOfMethod (method : String) : String :=
  if startsWith method "control/" then slice method "control/".length else method

def handleBlock (raw : List Char) : Run Unit :=
  match dataStr raw with
  | none => pure ()
  | some text =>
    match Json.parse (String.ofList text) with
    | none => throw .syntaxError
    | some value =>
      match frameEnvelopeSchema value with
      | none => throw .zodError
      | some frame =>
        match CONTROL_TOPICS.find? fun topic => topic.name = topicOfMethod frame.method with
        | some topic => applyFrame topic frame.params
        -- the value of another key is kept under that key, and a listener is called as well
        | none => modify fun client => ⟨client.state, client.notified ++ [client.state]⟩

/-- The loop of `streamOnce` over the chunks that its reader returns. -/
def streamOnce : Utf8.TextDecoder → List Char → List (List ℕ) → Run Unit
  | _, _, [] => pure ()
  | decoder, buffer, value :: chunks => do
    let (decoder, text) := decoder.decode value
    let buffer ← Cuts.consume "\n\n".toList handleBlock (buffer ++ text).length (buffer ++ text)
    streamOnce decoder buffer chunks

/-- What a frame does to the client. -/
def receive : Frame → Run Unit
  | .heartbeat => pure ()
  | .notification topic params => applyFrame topic params

end ControlClient

/-! ## Blocks -/

/-- The text of a frame without the blank line after it. -/
def Frame.block : Frame → List Char
  | .heartbeat => ": keepalive".toList
  | .notification topic params =>
    "data: ".toList ++ Json.stringifyChars (framePayload topic params)

theorem Frame.block_notification (topic : ControlTopic) (params : Val) :
    (Frame.notification topic params).block =
      "data: ".toList ++ Json.stringifyChars (framePayload topic params) := rfl

/-- The frame with the value that is read of its text. -/
def Frame.reread : Frame → Frame
  | .heartbeat => .heartbeat
  | .notification topic params => .notification topic (params.map Json.reread)

def Frame.isParsed : Frame → Bool
  | .heartbeat => true
  | .notification _ params => params.all Json.isParsed

theorem Frame.reread_eq {frame : Frame} (h : frame.isParsed = true) : frame.reread = frame := by
  cases frame with
  | heartbeat => rfl
  | notification topic params =>
    cases params with
    | none => rfl
    | some data =>
      have hdata : data.reread = data := Json.reread_eq data h
      rw [Frame.reread, Option.map_some, hdata]

theorem Frame.text_eq (frame : Frame) : frame.text = frame.block ++ "\n\n".toList := by
  cases frame with
  | heartbeat => rfl
  | notification topic params =>
    exact (List.append_assoc _ _ _).symm

/-- A block is one line. -/
theorem Frame.newline_notMem_block (frame : Frame) : '\n' ∉ frame.block := by
  cases frame with
  | heartbeat => decide
  | notification topic params =>
    have hprintable := Json.printable_stringifyChars (framePayload topic params)
    rw [Frame.block_notification, List.mem_append]
    rintro (h | h)
    · exact absurd h (by decide)
    · exact absurd (hprintable '\n' h) (by decide)

theorem joined_blocks (frames : List Frame) :
    Cuts.joined "\n\n".toList (frames.map Frame.block) = frames.flatMap Frame.text := by
  rw [Cuts.joined, List.flatMap_map]
  exact List.flatMap_congr fun frame _ => (Frame.text_eq frame).symm

namespace ControlClient

/-- Between its braces, the text of an object is not trimmed. -/
theorem trimChars_object (cs : List Char) :
    trimChars (' ' :: '\x7b' :: (cs ++ ['\x7d'])) = '\x7b' :: (cs ++ ['\x7d']) := by
  have hspace : (' ' :: '\x7b' :: (cs ++ ['\x7d'])).dropWhile isWhite =
      '\x7b' :: (cs ++ ['\x7d']) := rfl
  have hreverse : ('\x7b' :: (cs ++ ['\x7d'])).reverse = '\x7d' :: (cs.reverse ++ ['\x7b']) := by
    simp
  rw [trimChars, hspace, hreverse, List.dropWhile_cons_of_neg (by decide), ← hreverse,
    List.reverse_reverse]

theorem dataStr_notification (topic : ControlTopic) (params : Val) :
    dataStr (Frame.notification topic params).block =
      some (Json.stringifyChars (framePayload topic params)) := by
  have hline := List.splitOn_eq_singleton (Frame.newline_notMem_block (.notification topic params))
  rw [dataStr, hline, List.foldl_cons, List.foldl_nil, Frame.block_notification, framePayload,
    Json.stringifyChars]
  generalize Json.fieldsChars _ = cs
  exact congrArg some (trimChars_object cs)

theorem reread_framePayload (topic : ControlTopic) (data : Val) :
    (framePayload topic data).reread = framePayload topic (data.map Json.reread) := by
  cases data with
  | none => rfl
  | some data => rfl

theorem frameEnvelopeSchema_framePayload (topic : ControlTopic) (data : Val) :
    frameEnvelopeSchema (framePayload topic data) = some ⟨methodForTopic topic, data⟩ := by
  have hmethod : methodForTopic topic ≠ "" := by cases topic <;> decide
  cases data <;> simp [framePayload, frameEnvelopeSchema, List.lookup_cons, hmethod]

theorem find_topicOfMethod (topic : ControlTopic) :
    (CONTROL_TOPICS.find? fun t => t.name = topicOfMethod (methodForTopic topic)) =
      some topic := by
  cases topic <;> decide

/-- A block does what its frame does. -/
theorem handleBlock_block (frame : Frame) : handleBlock frame.block = receive frame.reread := by
  cases frame with
  | heartbeat => rfl
  | notification topic params =>
    have hparse := Json.parse_stringify_reread (framePayload topic params)
    rw [Json.stringify, reread_framePayload] at hparse
    rw [handleBlock, dataStr_notification]
    dsimp only
    rw [hparse]
    dsimp only
    rw [frameEnvelopeSchema_framePayload]
    dsimp only
    rw [find_topicOfMethod]
    rfl

/-! ## Streams -/

theorem streamOnce_eq (decoder : Utf8.TextDecoder) (buffer : List Char) (chunks : List (List ℕ)) :
    streamOnce decoder buffer chunks =
      Cuts.consumeAll "\n\n".toList handleBlock buffer (decoder.decodeAll chunks) := by
  induction chunks generalizing decoder buffer with
  | nil => rfl
  | cons value chunks ih =>
    rw [streamOnce, Utf8.TextDecoder.decodeAll, Cuts.consumeAll]
    exact bind_congr fun rest => ih _ rest

theorem Frame.head_text (frame : Frame) : ∃ c cs, frame.text = c :: cs ∧ c.toNat ≠ 0xFEFF := by
  cases frame with
  | heartbeat => exact ⟨':', " keepalive\n\n".toList, rfl, by decide⟩
  | notification topic params => exact ⟨'d', _, rfl, by decide⟩

theorem decodeAll_text {frames : List Frame} {chunks : List (List ℕ)}
    (hchunks : chunks.flatten = Utf8.encode (frames.flatMap Frame.text)) :
    (Utf8.TextDecoder.start.decodeAll chunks).flatten = frames.flatMap Frame.text := by
  refine Utf8.TextDecoder.decodeAll_encode hchunks fun c hc => ?_
  cases frames with
  | nil => cases hc
  | cons frame frames =>
    obtain ⟨d, cs, htext, hd⟩ := Frame.head_text frame
    rw [List.flatMap_cons, htext] at hc
    obtain rfl : d = c := Option.some.inj hc
    exact hd

/-- The blocks of the frames are handled in order, whatever the chunks are. -/
theorem streamOnce_blocks {frames : List Frame} {chunks : List (List ℕ)}
    (hchunks : chunks.flatten = Utf8.encode (frames.flatMap Frame.text)) :
    streamOnce .start [] chunks = forM (frames.map Frame.reread) receive := by
  have hblocks : Cuts.blocks "\n\n".toList (frames.flatMap Frame.text) =
      (frames.map Frame.block, []) := by
    rw [← joined_blocks]
    refine Cuts.blocks_joined fun text htext => ?_
    obtain ⟨frame, -, rfl⟩ := List.mem_map.1 htext
    exact frame.newline_notMem_block
  rw [streamOnce_eq, Cuts.consumeAll_eq (by decide) handleBlock rfl, List.nil_append,
    decodeAll_text hchunks, hblocks, List.forM_map, List.forM_map]
  exact congrArg (forM frames) (funext handleBlock_block)

theorem run_bind {α β : Type} {x : Run α} {f : α → Run β} {a : α} {client client' : ControlClient}
    (h : x.run.run client = (.ok a, client')) :
    (x >>= f).run.run client = (f a).run.run client' := by
  rw [ExceptT.run_bind, StateT.run_bind, h]
  rfl

theorem run_applyFrame {client : ControlClient} {topic : ControlTopic} {data : Val}
    {state : ControlState} (h : Live.applyFrame client.state topic data = .ok state) :
    (applyFrame topic data).run.run client = (.ok (), ⟨state, client.notified ++ [state]⟩) := by
  have hget : (get : Run ControlClient).run.run client = (.ok client, client) := rfl
  rw [applyFrame, run_bind hget, h]
  rfl

/-- What a frame does to the state. -/
theorem run_receive {client : ControlClient} {frame : Frame} {state : ControlState}
    (h : Live.handleBlock client.state frame = .ok state) :
    ∃ notified, (receive frame).run.run client = (.ok (), ⟨state, notified⟩) := by
  cases frame with
  | heartbeat =>
    cases h
    exact ⟨client.notified, rfl⟩
  | notification topic params =>
    exact ⟨client.notified ++ [state], run_applyFrame h⟩

theorem run_frames {frames : List Frame} {client : ControlClient} {state : ControlState}
    (h : applyFrames client.state frames = .ok state) :
    ∃ notified, (forM frames receive : Run Unit).run.run client = (.ok (), ⟨state, notified⟩) := by
  induction frames generalizing client with
  | nil =>
    cases h
    exact ⟨client.notified, rfl⟩
  | cons frame frames ih =>
    rw [applyFrames, List.foldlM_cons] at h
    cases hblock : Live.handleBlock client.state frame with
    | error e =>
      rw [hblock] at h
      cases h
    | ok mid =>
      rw [hblock] at h
      obtain ⟨notified, hframe⟩ := run_receive hblock
      have hrest : applyFrames (ControlClient.mk mid notified).state frames = .ok state := h
      obtain ⟨notified', hframes⟩ := ih hrest
      exact ⟨notified', by rw [List.forM_cons, run_bind hframe, hframes]⟩

/-- The frames are applied in order, each with the value that its text holds, and the state is their
fold, whatever the chunks of the response are. -/
theorem streamOnce_frames {frames : List Frame} {chunks : List (List ℕ)}
    (hchunks : chunks.flatten = Utf8.encode (frames.flatMap Frame.text)) :
    streamOnce .start [] chunks = forM (frames.map Frame.reread) receive ∧
      ((∀ frame ∈ frames, frame.isParsed = true) → frames.map Frame.reread = frames) ∧
      ∀ client state, applyFrames client.state (frames.map Frame.reread) = .ok state →
        ∃ notified, (streamOnce .start [] chunks).run.run client = (.ok (), ⟨state, notified⟩) := by
  refine ⟨streamOnce_blocks hchunks, fun h => ?_, fun client state hstate => ?_⟩
  · rw [List.map_congr_left fun frame hframe => Frame.reread_eq (h frame hframe), List.map_id']
  · rw [streamOnce_blocks hchunks]
    exact run_frames hstate

/-- Each byte arrives by itself, those of one character too. -/
theorem streamOnce_frames_bytes :
    (((streamOnce .start []
        ((Utf8.encode ([.notification .auth (some (.string "a\n\né")), .heartbeat].flatMap
          Frame.text)).map fun byte => [byte])).run.run ⟨fun _ => none, []⟩).2.state .auth) =
      some (.string "a\n\né") := by
  have hbytes : ∀ bytes : List ℕ, (bytes.map fun byte => [byte]).flatten = bytes := fun bytes =>
    bytes.flatMap_def.symm.trans bytes.flatMap_singleton'
  have hframes := streamOnce_frames (hbytes (Utf8.encode
    ([Frame.notification .auth (some (.string "a\n\né")), .heartbeat].flatMap Frame.text)))
  obtain ⟨notified, hrun⟩ := hframes.2.2 ⟨fun _ => none, []⟩ _ rfl
  rw [hrun]
  rfl

end ControlClient

end Maximal.Live
