import Maximal.WebTools.Stream

/-!
# Web tools: the events of a turn

What the streaming agent has collected at the end of an upstream turn, as functions of the events
of the turn.

## Main definitions

- `upstreamTurn` — the events of a turn
- `calledWebTools`, `lastStopReason` — the calls it executes and the reason it stops for

## Main results

- `dispatchAll_invariant` — what each event keeps holds after a turn
- `dispatchAll_of_readFrames` — a turn that does not break off dispatches all its events
- `collected_of_readFrames` — what the turn has collected then
-/

namespace Maximal.WebTools

open Js

def toolUses (content : List AnthropicAssistantContentBlock) : List AnthropicToolUseBlock :=
  content.filterMap (·.toolUse?)

section

variable {platform : Platform} {executor : Executor}

/-- The calls of web tools whose blocks are open, and those whose blocks have stopped, by id. -/
def trackCalls (c : Entries ℕ Val × List Val) :
    AnthropicStreamEventData → Entries ℕ Val × List Val
  | .contentBlockStart index block =>
    match webTool? block with
    | some (id, _) => (c.1.set index id, c.2)
    | none => (c.1.delete index, c.2)
  | .contentBlockStop index => (c.1.delete index, c.2 ++ (c.1.get index).toList)
  | _ => c

/-- The ids of the web-tool blocks that are started and stopped. -/
def calledWebTools (events : List AnthropicStreamEventData) : List Val :=
  (events.foldl trackCalls ([], [])).2

def trackStopReason (reason : StopReasonValue) : AnthropicStreamEventData → StopReasonValue
  | .messageDelta stopReason _ => if stopReason = .undefined then .null else stopReason
  | _ => reason

/-- The stop reason that a turn ends with. -/
def lastStopReason (events : List AnthropicStreamEventData) : StopReasonValue :=
  events.foldl trackStopReason .null

/-- What a turn has collected, next to the calls that its events have shown so far. -/
structure Collected (c : Entries ℕ Val × List Val) (d : Dispatch) : Prop where
  opened : ∀ i, c.1.get i = (d.upstreamToClient.get i).bind fun b => b.toolUse.map (·.1)
  isToolUse : ∀ i b, d.upstreamToClient.get i = some b → b.isWebTool → b.blockKind = .toolUse
  called : d.outcomes.map (·.1.id) = c.2
  content : toolUses d.assistantContent = d.outcomes.map (·.1)

theorem Dispatch.get_of_openAt {d : Dispatch} {index : BlockIndex} {key : ℕ} {b : OpenBlock}
    (h : d.openAt index = some (key, b)) : d.upstreamToClient.get key = some b := by
  rcases index with n | v
  · obtain ⟨b', hb', heq⟩ := Option.map_eq_some_iff.1 h
    rw [Prod.mk.injEq] at heq
    obtain ⟨rfl, rfl⟩ := heq
    exact hb'
  · rw [Dispatch.openAt.eq_def] at h
    split at h
    · next heq => cases heq
    · next x hx =>
      cases hx
      obtain ⟨hfound, pre, post, hsplit, hpre⟩ := List.find?_eq_some_iff_append.1 h
      rw [hsplit, Entries.get, List.lookup_append, List.lookup_eq_none_iff.2, Option.none_or,
        List.lookup_cons_self]
      intro entry hentry
      rw [bne_iff_ne]
      rintro rfl
      have hne := hpre entry hentry
      rw [hfound] at hne
      cases hne
    · cases h

theorem webTool?_kind {block : ContentBlock} (h : (webTool? block).isSome) :
    block.kind = .toolUse := by
  cases block with
  | toolUse => rfl
  | _ => cases h

/-- A delta only adds to what a block has gathered. -/
theorem OpenBlock.add_eq {b b' : OpenBlock} {delta : BlockDelta} (h : b.add delta = .ok b') :
    ∃ partialJson text thinking, b' = { b with partialJson, text, thinking } := by
  have hmap : ∀ {x : Except TypeError String} {f : String → OpenBlock}, x.map f = .ok b' →
      (∀ t, ∃ partialJson text thinking, f t = { b with partialJson, text, thinking }) →
      ∃ partialJson text thinking, b' = { b with partialJson, text, thinking } := by
    intro x f hx hf
    cases x with
    | error e => cases hx
    | ok t =>
      cases hx
      exact hf t
  cases delta with
  | signatureDelta =>
    cases h
    exact ⟨_, _, _, rfl⟩
  | _ =>
    rw [OpenBlock.add] at h
    split at h
    · exact hmap h fun t => ⟨_, _, _, rfl⟩
    · cases h
      exact ⟨_, _, _, rfl⟩

theorem OpenBlock.add_fields {b b' : OpenBlock} {delta : BlockDelta} (h : b.add delta = .ok b') :
    b'.toolUse = b.toolUse ∧ b'.blockKind = b.blockKind := by
  obtain ⟨_, _, _, rfl⟩ := OpenBlock.add_eq h
  exact ⟨rfl, rfl⟩

namespace Collected

variable {c : Entries ℕ Val × List Val} {d : Dispatch}

theorem start (h : Collected c d) (index : ℕ) (block : ContentBlock) :
    Collected (trackCalls c (.contentBlockStart index block)) (handleBlockStart index block d) := by
  have hopened : ∀ i, (trackCalls c (.contentBlockStart index block)).1.get i =
      ((handleBlockStart index block d).upstreamToClient.get i).bind
        fun b => b.toolUse.map (·.1) := by
    intro i
    simp only [trackCalls, handleBlockStart]
    by_cases hi : i = index
    · subst hi
      rw [Entries.get_set_self]
      cases webTool? block with
      | none => exact Entries.get_delete_self _ _
      | some call => exact Entries.get_set_self _ _ _
    · rw [Entries.get_set_of_ne _ _ hi, ← h.opened i]
      cases webTool? block with
      | none => exact Entries.get_delete_of_ne _ hi
      | some call => exact Entries.get_set_of_ne _ _ hi
  refine ⟨hopened, fun i b hb hweb => ?_, ?_, h.content⟩
  · simp only [handleBlockStart] at hb
    by_cases hi : i = index
    · subst hi
      rw [Entries.get_set_self] at hb
      cases hb
      exact webTool?_kind hweb
    · rw [Entries.get_set_of_ne _ _ hi] at hb
      exact h.isToolUse i b hb hweb
  · refine h.called.trans ?_
    simp only [trackCalls]
    cases webTool? block <;> rfl

theorem delta (h : Collected c d) {index : BlockIndex} {delta : BlockDelta} {d' : Dispatch}
    (hd : handleBlockDelta index delta d = .ok d') : Collected c d' := by
  rw [handleBlockDelta] at hd
  split at hd
  · cases hd
    exact h
  · next key b hopen =>
    have hget := Dispatch.get_of_openAt hopen
    cases hadd : b.add delta with
    | error e =>
      rw [hadd] at hd
      cases hd
    | ok b' =>
      rw [hadd] at hd
      cases hd
      obtain ⟨htool, hkind⟩ := OpenBlock.add_fields hadd
      refine ⟨fun i => ?_, fun i b₁ hb₁ hweb => ?_, h.called, h.content⟩
      · by_cases hi : i = key
        · subst hi
          rw [h.opened, hget, Entries.get_set_self, Option.bind_some, Option.bind_some, htool]
        · rw [Entries.get_set_of_ne _ _ hi, h.opened]
      · by_cases hi : i = key
        · subst hi
          rw [Entries.get_set_self] at hb₁
          cases hb₁
          rw [hkind]
          exact h.isToolUse i b hget (by rwa [OpenBlock.isWebTool, htool] at hweb)
        · rw [Entries.get_set_of_ne _ _ hi] at hb₁
          exact h.isToolUse i b₁ hb₁ hweb

theorem stop (h : Collected c d) (index : ℕ) :
    Collected (trackCalls c (.contentBlockStop index))
      (handleBlockStop platform executor index d) := by
  have hopened : ∀ i, (c.1.delete index).get i =
      ((d.upstreamToClient.delete index).get i).bind fun b => b.toolUse.map (·.1) := by
    intro i
    by_cases hi : i = index
    · subst hi
      rw [Entries.get_delete_self, Entries.get_delete_self, Option.bind_none]
    · rw [Entries.get_delete_of_ne _ hi, Entries.get_delete_of_ne _ hi, h.opened]
  have hkind : ∀ i b, (d.upstreamToClient.delete index).get i = some b → b.isWebTool →
      b.blockKind = .toolUse := by
    intro i b hb
    by_cases hi : i = index
    · subst hi
      rw [Entries.get_delete_self] at hb
      cases hb
    · rw [Entries.get_delete_of_ne _ hi] at hb
      exact h.isToolUse i b hb
  rw [handleBlockStop, trackCalls]
  cases hget : d.upstreamToClient.get index with
  | none =>
    have hnone : c.1.get index = none := by rw [h.opened, hget, Option.bind_none]
    refine ⟨fun i => ?_, h.isToolUse, by rw [hnone]; simpa using h.called, h.content⟩
    by_cases hi : i = index
    · subst hi
      rw [Entries.get_delete_self, hget, Option.bind_none]
    · rw [Entries.get_delete_of_ne _ hi, h.opened]
  | some b =>
    have hcall : c.1.get index = b.toolUse.map (·.1) := by rw [h.opened, hget, Option.bind_some]
    rw [hcall]
    dsimp only
    cases htool : b.toolUse with
    | none =>
      rw [Option.map_none, Option.toList_none, List.append_nil]
      cases b.blockKind with
      | text =>
        refine ⟨hopened, hkind, h.called, ?_⟩
        rw [toolUses, List.filterMap_append]
        exact (List.append_nil _).trans h.content
      | toolUse => exact ⟨hopened, hkind, h.called, h.content⟩
      | thinking => exact ⟨hopened, hkind, h.called, h.content⟩
    | some call =>
      obtain ⟨id, name⟩ := call
      have hb := h.isToolUse index b hget (by rw [OpenBlock.isWebTool, htool]; rfl)
      rw [hb]
      refine ⟨hopened, hkind, ?_, ?_⟩
      · rw [← h.called]
        exact List.map_append
      · have happend : toolUses (d.assistantContent ++ [.toolUse
            ⟨id, some (.string name.text), parseToolInput platform b.partialJson⟩]) =
            toolUses d.assistantContent ++
              [⟨id, some (.string name.text), parseToolInput platform b.partialJson⟩] :=
          List.filterMap_append
        refine happend.trans (Eq.trans ?_ List.map_append.symm)
        rw [h.content]
        rfl

/-- One event more. -/
theorem event (h : Collected c d) {e : AnthropicStreamEventData} {d' : Dispatch}
    (hd : dispatchEvent platform executor e d = .ok d') : Collected (trackCalls c e) d' := by
  have hsame : ∀ {d₁ : Dispatch}, d₁.upstreamToClient = d.upstreamToClient →
      d₁.outcomes = d.outcomes → d₁.assistantContent = d.assistantContent → Collected c d₁ := by
    intro d₁ hopen houtcomes hcontent
    exact ⟨hopen ▸ h.opened, hopen ▸ h.isToolUse, houtcomes ▸ h.called,
      by rw [hcontent, houtcomes, h.content]⟩
  cases e with
  | contentBlockStart index block =>
    cases hd
    exact h.start index block
  | contentBlockDelta index delta => exact h.delta hd
  | contentBlockStop index =>
    cases hd
    exact h.stop index
  | messageStart =>
    cases hd
    show Collected c _
    split
    · exact h
    · exact hsame rfl rfl rfl
  | _ =>
    cases hd
    exact hsame rfl rfl rfl

end Collected

/-- The calls among the events for the client that it has to answer, by id and name. -/
def clientCalls (written : List ClientEvent) : List (Val × Val) :=
  written.filterMap fun
    | .forward (.contentBlockStart _ (.toolUse id name)) => some (id, name)
    | _ => none

/-- The calls among the events of a turn that are not calls of web tools. -/
def otherCalls (events : List AnthropicStreamEventData) : List (Val × Val) :=
  events.filterMap fun
    | .contentBlockStart _ (.toolUse id name) => if isWebToolName name then none else some (id, name)
    | _ => none

theorem clientCalls_append (written written' : List ClientEvent) :
    clientCalls (written ++ written') = clientCalls written ++ clientCalls written' :=
  List.filterMap_append

theorem otherCalls_append (events events' : List AnthropicStreamEventData) :
    otherCalls (events ++ events') = otherCalls events ++ otherCalls events' :=
  List.filterMap_append

theorem clientCalls_startEvent (clientIndex index : ℕ) (block : ContentBlock) :
    clientCalls [startEvent clientIndex block] = otherCalls [.contentBlockStart index block] := by
  cases block with
  | toolUse id name =>
    cases hname : toolName? name with
    | none => simp [startEvent, webTool?, otherCalls, isWebToolName, clientCalls, hname]
    | some tool => simp [startEvent, webTool?, otherCalls, isWebToolName, clientCalls, hname]
  | _ => rfl

def ClientEvent.isMessageDelta : ClientEvent → Bool
  | .messageDelta _ _ => true
  | _ => false

/-- What one event makes a turn write, keep for the end and report as its stop reason. -/
structure Wrote (e : AnthropicStreamEventData) (d d' : Dispatch) (added : List ClientEvent) :
    Prop where
  written : d'.written = d.written ++ added
  calls : clientCalls added = otherCalls [e]
  quiet : ∀ event ∈ added, event.isMessageDelta = false
  buffered : d'.bufferedFinal = d.bufferedFinal ++ [e].filter (·.endsMessage)
  stopReason : d'.stopReason = trackStopReason d.stopReason e

theorem handleBlockStop_wrote (index : ℕ) (d : Dispatch) :
    ∃ added, Wrote (.contentBlockStop index) d (handleBlockStop platform executor index d) added := by
  rw [handleBlockStop]
  split
  · exact ⟨[], (List.append_nil _).symm, rfl, by simp, (List.append_nil _).symm, rfl⟩
  · dsimp only
    split
    · exact ⟨_, rfl, rfl, by simp [ClientEvent.isMessageDelta], (List.append_nil _).symm, rfl⟩
    · exact ⟨_, rfl, rfl, by simp [ClientEvent.isMessageDelta], (List.append_nil _).symm, rfl⟩
    · exact ⟨_, List.append_assoc .., rfl, by simp [ClientEvent.isMessageDelta],
        (List.append_nil _).symm, rfl⟩
    · exact ⟨_, rfl, rfl, by simp [ClientEvent.isMessageDelta], (List.append_nil _).symm, rfl⟩

theorem startEvent_quiet (clientIndex : ℕ) (block : ContentBlock) :
    (startEvent clientIndex block).isMessageDelta = false := by
  rw [startEvent]
  split <;> rfl

theorem dispatchEvent_wrote {e : AnthropicStreamEventData} {d d' : Dispatch}
    (h : dispatchEvent platform executor e d = .ok d') : ∃ added, Wrote e d d' added := by
  have hnil {l : List AnthropicStreamEventData} : l = l ++ [] := (List.append_nil l).symm
  cases e with
  | messageStart id model usage =>
    cases h
    show ∃ added, Wrote _ d (if d.messageStartEmitted then d else _) added
    split
    · exact ⟨[], (List.append_nil _).symm, rfl, by simp, hnil, rfl⟩
    · exact ⟨_, rfl, rfl, by simp [ClientEvent.isMessageDelta], hnil, rfl⟩
  | contentBlockStart index block =>
    cases h
    exact ⟨_, rfl, clientCalls_startEvent d.next index block, by simp [startEvent_quiet], hnil, rfl⟩
  | contentBlockDelta index delta =>
    rw [dispatchEvent, handleBlockDelta] at h
    split at h
    · cases h
      exact ⟨[], (List.append_nil _).symm, rfl, by simp, hnil, rfl⟩
    · next key b _ =>
      cases hadd : b.add delta with
      | error e =>
        rw [hadd] at h
        cases h
      | ok b' =>
        rw [hadd] at h
        cases h
        exact ⟨_, rfl, rfl, by simp [ClientEvent.isMessageDelta], hnil, rfl⟩
  | contentBlockStop index =>
    cases h
    exact handleBlockStop_wrote index d
  | messageDelta stopReason usage =>
    cases h
    exact ⟨[], (List.append_nil _).symm, rfl, by simp, rfl, rfl⟩
  | messageStop =>
    cases h
    exact ⟨[], (List.append_nil _).symm, rfl, by simp, rfl, rfl⟩
  | ping =>
    cases h
    exact ⟨_, rfl, rfl, by simp [ClientEvent.isMessageDelta], hnil, rfl⟩
  | error message =>
    cases h
    exact ⟨_, rfl, rfl, by simp [ClientEvent.isMessageDelta], hnil, rfl⟩

/-- What holds of a turn and its events, event by event, holds after all of them. -/
theorem dispatchAll_invariant {μ : Type} (track : μ → AnthropicStreamEventData → μ)
    (I : μ → Dispatch → Prop)
    (hstep : ∀ m d e d', I m d → dispatchEvent platform executor e d = .ok d' → I (track m e) d')
    {events : List AnthropicStreamEventData} {m : μ} {d d' : Dispatch} (h : I m d)
    (hd : dispatchAll platform executor events d = (d', none)) : I (events.foldl track m) d' := by
  induction events generalizing m d with
  | nil =>
    cases hd
    exact h
  | cons e events ih =>
    rw [dispatchAll] at hd
    split at hd
    · cases hd
    · next heq => exact ih (hstep _ _ _ _ h heq) hd

theorem dispatchAll_append {events events' : List AnthropicStreamEventData} {d d₁ : Dispatch}
    (h : dispatchAll platform executor events d = (d₁, none)) :
    dispatchAll platform executor (events ++ events') d =
      dispatchAll platform executor events' d₁ := by
  induction events generalizing d with
  | nil =>
    cases h
    rfl
  | cons e events ih =>
    rw [dispatchAll] at h
    rw [List.cons_append, dispatchAll]
    split at h
    · cases h
    · exact ih h

/-- The events of a turn, and how its stream breaks off, if it does. -/
def upstreamTurn (platform : Platform) (failure : Option Failure) :
    List (Option String) → AnthropicStreamState → List AnthropicStreamEventData × Option Failure
  | [], _ => ([], failure)
  | data :: frames, innerState =>
    if data = some "[DONE]" then ([], none)
    else if data.getD "" = "" then upstreamTurn platform failure frames innerState
    else
      match platform.parse (data.getD "") with
      | none => ([], some .invalidJson)
      | some chunk =>
        match translateChunkToAnthropicEvents chunk innerState with
        | .error e => ([], some (.type e))
        | .ok (_, innerState, events) =>
          let rest := upstreamTurn platform failure frames innerState
          (events ++ rest.1, rest.2)

/-- A turn that does not break off dispatches all its events. -/
theorem dispatchAll_of_readFrames {failure : Option Failure} {frames : List (Option String)}
    {innerState : AnthropicStreamState} {d d' : Dispatch}
    (h : readFrames platform executor failure frames innerState d = (d', none)) :
    dispatchAll platform executor (upstreamTurn platform failure frames innerState).1 d =
        (d', none) ∧
      (upstreamTurn platform failure frames innerState).2 = none := by
  induction frames generalizing innerState d with
  | nil =>
    cases h
    exact ⟨rfl, rfl⟩
  | cons data frames ih =>
    rw [readFrames] at h
    rw [upstreamTurn]
    split at h
    · next hdone =>
      rw [if_pos hdone]
      cases h
      exact ⟨rfl, rfl⟩
    · next hdone =>
      rw [if_neg hdone]
      split at h
      · next hempty =>
        rw [if_pos hempty]
        exact ih h
      · next hempty =>
        rw [if_neg hempty]
        cases hparse : platform.parse (data.getD "") with
        | none =>
          rw [hparse] at h
          cases h
        | some chunk =>
          rw [hparse] at h
          dsimp only at h ⊢
          cases htranslate : translateChunkToAnthropicEvents chunk innerState with
          | error e =>
            rw [htranslate] at h
            cases h
          | ok r =>
            obtain ⟨_, innerState, events⟩ := r
            rw [htranslate] at h
            dsimp only at h ⊢
            split at h
            · cases h
            · next d₁ hevents =>
              obtain ⟨hrest, hnone⟩ := ih h
              exact ⟨(dispatchAll_append hevents).trans hrest, hnone⟩

theorem dispatchAll_append_inv {events events' : List AnthropicStreamEventData} {d d' : Dispatch}
    (h : dispatchAll platform executor (events ++ events') d = (d', none)) :
    ∃ d₁, dispatchAll platform executor events d = (d₁, none) ∧
      dispatchAll platform executor events' d₁ = (d', none) := by
  induction events generalizing d with
  | nil => exact ⟨d, rfl, h⟩
  | cons e events ih =>
    rw [List.cons_append, dispatchAll] at h
    rw [dispatchAll]
    split at h
    · cases h
    · exact ih h

/-- A turn whose events can all be dispatched, and which the upstream does not break off, does not
break off. -/
theorem readFrames_of_dispatchAll {failure : Option Failure} {frames : List (Option String)}
    {innerState : AnthropicStreamState} {d d' : Dispatch}
    (h : dispatchAll platform executor (upstreamTurn platform failure frames innerState).1 d =
      (d', none))
    (hnone : (upstreamTurn platform failure frames innerState).2 = none) :
    readFrames platform executor failure frames innerState d = (d', none) := by
  induction frames generalizing innerState d with
  | nil =>
    obtain rfl : failure = none := hnone
    cases h
    rfl
  | cons data frames ih =>
    rw [upstreamTurn] at h hnone
    rw [readFrames]
    split at h
    · next hdone =>
      rw [if_pos hdone]
      cases h
      rfl
    · next hdone =>
      rw [if_neg hdone] at hnone ⊢
      split at h
      · next hempty =>
        rw [if_pos hempty] at hnone ⊢
        exact ih h hnone
      · next hempty =>
        rw [if_neg hempty] at hnone ⊢
        cases hparse : platform.parse (data.getD "") with
        | none =>
          rw [hparse] at hnone
          cases hnone
        | some chunk =>
          rw [hparse] at h hnone
          dsimp only at h hnone ⊢
          cases htranslate : translateChunkToAnthropicEvents chunk innerState with
          | error e =>
            rw [htranslate] at hnone
            cases hnone
          | ok r =>
            obtain ⟨_, innerState, events⟩ := r
            rw [htranslate] at h hnone
            dsimp only at h hnone ⊢
            obtain ⟨d₁, hevents, hrest⟩ := dispatchAll_append_inv h
            rw [hevents]
            exact ih hrest hnone

/-- The events that are dispatched: those before one that throws. -/
def dispatched (platform : Platform) (executor : Executor) :
    List AnthropicStreamEventData → Dispatch → List AnthropicStreamEventData
  | [], _ => []
  | event :: events, d =>
    match dispatchEvent platform executor event d with
    | .error _ => []
    | .ok d' => event :: dispatched platform executor events d'

theorem dispatchAll_dispatched (events : List AnthropicStreamEventData) (d : Dispatch) :
    dispatchAll platform executor (dispatched platform executor events d) d =
      ((dispatchAll platform executor events d).1, none) := by
  induction events generalizing d with
  | nil => rfl
  | cons e events ih =>
    rw [dispatched, dispatchAll]
    cases hd : dispatchEvent platform executor e d with
    | error err => rfl
    | ok d' =>
      dsimp only
      rw [dispatchAll, hd]
      exact ih d'

theorem dispatchAll_append_eq (events events' : List AnthropicStreamEventData) (d : Dispatch) :
    dispatchAll platform executor (events ++ events') d =
      match dispatchAll platform executor events d with
      | (d₁, some e) => (d₁, some e)
      | (d₁, none) => dispatchAll platform executor events' d₁ := by
  induction events generalizing d with
  | nil => rfl
  | cons e events ih =>
    rw [List.cons_append, dispatchAll, dispatchAll]
    cases dispatchEvent platform executor e d with
    | error err => rfl
    | ok d' => exact ih d'

/-- A turn that breaks off has dispatched its events up to one that throws, too; if one throws,
the turn breaks off for it. -/
theorem readFrames_dispatches (platform : Platform) (executor : Executor) (failure : Option Failure)
    (frames : List (Option String)) (innerState : AnthropicStreamState) (d : Dispatch) :
    (readFrames platform executor failure frames innerState d).1 =
        (dispatchAll platform executor (upstreamTurn platform failure frames innerState).1 d).1 ∧
      ∀ e, (dispatchAll platform executor
          (upstreamTurn platform failure frames innerState).1 d).2 = some e →
        (readFrames platform executor failure frames innerState d).2 = some (.type e) := by
  have hnothing : ∀ d₁ e, (dispatchAll platform executor [] d₁).2 = some e → False := by
    intro d₁ e he
    cases he
  induction frames generalizing innerState d with
  | nil => exact ⟨rfl, fun e he => (hnothing _ e he).elim⟩
  | cons data frames ih =>
    rw [readFrames, upstreamTurn]
    by_cases hdone : data = some "[DONE]"
    · rw [if_pos hdone, if_pos hdone]
      exact ⟨rfl, fun e he => (hnothing _ e he).elim⟩
    · rw [if_neg hdone, if_neg hdone]
      by_cases hempty : data.getD "" = ""
      · rw [if_pos hempty, if_pos hempty]
        exact ih innerState d
      · rw [if_neg hempty, if_neg hempty]
        cases platform.parse (data.getD "") with
        | none => exact ⟨rfl, fun e he => (hnothing _ e he).elim⟩
        | some chunk =>
          dsimp only
          cases translateChunkToAnthropicEvents chunk innerState with
          | error e => exact ⟨rfl, fun e he => (hnothing _ e he).elim⟩
          | ok r =>
            obtain ⟨_, innerState, events⟩ := r
            dsimp only
            rw [dispatchAll_append_eq]
            cases dispatchAll platform executor events d with
            | mk d₁ broken =>
              cases broken with
              | some e => exact ⟨rfl, fun e' he => by cases he; rfl⟩
              | none => exact ih innerState d₁

/-- The state in which a turn ends, and the events that have led there. -/
theorem dispatchAll_turn (platform : Platform) (executor : Executor) (failure : Option Failure)
    (frames : List (Option String)) (innerState : AnthropicStreamState) (d : Dispatch) :
    dispatchAll platform executor
        (dispatched platform executor (upstreamTurn platform failure frames innerState).1 d) d =
      ((readFrames platform executor failure frames innerState d).1, none) := by
  rw [dispatchAll_dispatched, (readFrames_dispatches platform executor failure frames innerState d).1]

theorem startTurn_collected (s : StreamState) : Collected ([], []) (startTurn s) where
  opened _ := rfl
  isToolUse i b h := by cases h
  called := rfl
  content := rfl

/-- What a turn has collected when its stream has ended. -/
theorem collected_of_readFrames {s : StreamState} {failure : Option Failure}
    {frames : List (Option String)} {d : Dispatch}
    (h : readFrames platform executor failure frames .fresh (startTurn s) = (d, none)) :
    d.outcomes.map (·.1.id) = calledWebTools (upstreamTurn platform failure frames .fresh).1 ∧
      toolUses d.assistantContent = d.outcomes.map (·.1) ∧
      d.stopReason = lastStopReason (upstreamTurn platform failure frames .fresh).1 := by
  have hall := (dispatchAll_of_readFrames h).1
  have hcollected := dispatchAll_invariant trackCalls Collected
    (fun _ _ _ _ hc hd => hc.event hd) (startTurn_collected s) hall
  have hreason := dispatchAll_invariant trackStopReason (fun r d => d.stopReason = r)
    (fun _ _ _ _ hr hd => hr ▸ (dispatchEvent_wrote hd).choose_spec.stopReason) rfl hall
  exact ⟨hcollected.called, hcollected.content, hreason⟩

/-- What a turn has written and kept for the end after some of its events. -/
structure Written (start : List ClientEvent) (events : List AnthropicStreamEventData)
    (added : List ClientEvent) (d : Dispatch) : Prop where
  written : d.written = start ++ added
  calls : clientCalls added = otherCalls events
  quiet : ∀ event ∈ added, event.isMessageDelta = false
  buffered : d.bufferedFinal = events.filter (·.endsMessage)

theorem Written.event {start : List ClientEvent} {events : List AnthropicStreamEventData}
    {d d' : Dispatch} {e : AnthropicStreamEventData}
    (h : ∃ added, Written start events added d)
    (hd : dispatchEvent platform executor e d = .ok d') :
    ∃ added, Written start (events ++ [e]) added d' := by
  obtain ⟨added, h⟩ := h
  obtain ⟨more, hmore⟩ := dispatchEvent_wrote hd
  refine ⟨added ++ more, ?_, ?_, ?_, ?_⟩
  · rw [hmore.written, h.written, List.append_assoc]
  · rw [clientCalls_append, h.calls, hmore.calls, otherCalls_append]
  · intro event hevent
    exact (List.mem_append.1 hevent).elim (h.quiet event) (hmore.quiet event)
  · rw [hmore.buffered, h.buffered, List.filter_append]

theorem foldl_concat {α : Type} (events done : List α) :
    events.foldl (fun done e => done ++ [e]) done = done ++ events := by
  induction events generalizing done with
  | nil => exact (List.append_nil done).symm
  | cons e events ih => rw [List.foldl_cons, ih, List.append_assoc, List.singleton_append]

/-- What a turn has written and kept when its stream has ended. -/
theorem written_of_readFrames {s : StreamState} {failure : Option Failure}
    {frames : List (Option String)} {d : Dispatch}
    (h : readFrames platform executor failure frames .fresh (startTurn s) = (d, none)) :
    ∃ added, Written s.written (upstreamTurn platform failure frames .fresh).1 added d := by
  have hstart : ∃ added, Written s.written [] added (startTurn s) :=
    ⟨[], (List.append_nil _).symm, rfl, by simp, rfl⟩
  have hall := dispatchAll_invariant (fun done e => done ++ [e])
    (fun done d => ∃ added, Written s.written done added d) (fun _ _ _ _ hw hd => Written.event hw hd)
    hstart (dispatchAll_of_readFrames h).1
  rwa [foldl_concat, List.nil_append] at hall

/-- Only the ends of messages report a stop reason. -/
theorem lastStopReason_filter (events : List AnthropicStreamEventData) :
    lastStopReason (events.filter (·.endsMessage)) = lastStopReason events := by
  rw [lastStopReason, lastStopReason, List.foldl_filter]
  congr 1
  funext reason e
  cases e <;> rfl

end

end Maximal.WebTools
