import Maximal.Messages.ChunkGrammar
import Maximal.WebTools.Pairing
import Maximal.WebTools.StreamTurns

/-!
# Web tools: what the streaming client reads

The client of the streaming agent reads one message, whatever number of turns it is made of.

## Main definitions

- `Expected`, `expect` — what a client expects next, and whether an event may come
- `BlockRow` — the blocks of a message: numbered, one after the other, calls followed by results
- `TurnGrammar` — the blocks of a turn are opened one after the other, and all are closed

## Main results

- `blockRow_of_expectAll` — what an accepted message looks like
- `streamed_message` — the message that is written for turns which obey the grammar
-/

namespace Maximal.WebTools

open Js Blocks

/-! ## Messages -/

/-- The part of an event that opens or closes a block. -/
def ClientEvent.frame : ClientEvent → BlockEvent ℕ Unit Unit
  | .forward (.contentBlockStart i _) => .start i ()
  | .forward (.contentBlockStop i) => .stop i
  | .serverToolUseStart i _ _ => .start i ()
  | .resultStart i _ => .start i ()
  | _ => .other

/-- What a block is for the client: a call executed by the server, the result of one, or another
block. -/
inductive StartKind where
  | call (id : Val)
  | result (toolUseId : Val)
  | plain
  deriving DecidableEq

def ClientEvent.startKind? : ClientEvent → Option StartKind
  | .forward (.contentBlockStart _ _) => some .plain
  | .serverToolUseStart _ id _ => some (.call id)
  | .resultStart _ block => some (.result block.toolUseId)
  | _ => none

/-- A call is followed by its result, and results come nowhere else; `owed` is a call whose result
comes first. -/
def ResultsFollow (owed : Option Val) : List StartKind → Prop
  | [] => True
  | .call id :: kinds => owed = none ∧ ResultsFollow (some id) kinds
  | .result id :: kinds => owed = some id ∧ ResultsFollow none kinds
  | .plain :: kinds => owed = none ∧ ResultsFollow none kinds

/-- The call whose result is still to come. -/
def owedAfter (owed : Option Val) : List StartKind → Option Val
  | [] => owed
  | .call id :: kinds => owedAfter (some id) kinds
  | .result _ :: kinds => owedAfter none kinds
  | .plain :: kinds => owedAfter none kinds

/-- The blocks of what is written: numbered from zero, each closed before the next one is opened,
and calls followed by their results. -/
structure BlockRow (written : List ClientEvent) : Prop where
  numbered : opens (written.map (·.frame)) =
    List.range (opens (written.map (·.frame))).length
  closed : Disciplined (fun _ _ => True) [] (written.map (·.frame))
  results : ResultsFollow none (written.filterMap (·.startKind?))

/-- No block is open, and no result is still to come. -/
def Complete (written : List ClientEvent) : Prop :=
  openAfter [] (written.map (·.frame)) = [] ∧
    owedAfter none (written.filterMap (·.startKind?)) = none

/-! ## Expectations -/

/-- What a client expects: the index of the next block, the open block and the call that it is, and
the call whose block was closed last. -/
structure Expected where
  next : ℕ
  opened : Option (ℕ × Option Val)
  owed : Option Val
  deriving DecidableEq

def Expected.start (c : Expected) (index : ℕ) (id : Option Val) : Option Expected :=
  if c.opened = none ∧ index = c.next then some ⟨c.next + 1, some (index, id), none⟩ else none

/-- The expectation after an event, if the event may come. -/
def expect (c : Expected) : ClientEvent → Option Expected
  | .forward (.contentBlockStart i _) => if c.owed = none then c.start i none else none
  | .serverToolUseStart i id _ => if c.owed = none then c.start i (some id) else none
  | .resultStart i block => if c.owed = some block.toolUseId then c.start i none else none
  | .forward (.contentBlockStop i) =>
    match c.opened with
    | some (j, id) => if i = j then some { c with opened := none, owed := id } else none
    | none => none
  | _ => some c

def expectAll (c : Expected) : List ClientEvent → Option Expected
  | [] => some c
  | e :: es => (expect c e).bind fun c' => expectAll c' es

namespace Expected

/-- Nothing has been read. -/
def init : Expected := ⟨0, none, none⟩

def blocks (c : Expected) : List (ℕ × Unit) := c.opened.toList.map fun b => (b.1, ())

/-- The call that is open, or whose result is to come. -/
def call (c : Expected) : Option Val :=
  match c.opened with
  | some (_, id) => id
  | none => c.owed

end Expected

theorem expectAll_append (c : Expected) (es es' : List ClientEvent) :
    expectAll c (es ++ es') = (expectAll c es).bind fun c' => expectAll c' es' := by
  induction es generalizing c with
  | nil => rfl
  | cons e es ih =>
    rw [List.cons_append, expectAll, expectAll]
    cases expect c e with
    | none => rfl
    | some c' => exact ih c'

theorem resultsFollow_append (owed : Option Val) (kinds kinds' : List StartKind) :
    ResultsFollow owed (kinds ++ kinds') ↔
      ResultsFollow owed kinds ∧ ResultsFollow (owedAfter owed kinds) kinds' := by
  induction kinds generalizing owed with
  | nil => simp [ResultsFollow, owedAfter]
  | cons kind kinds ih =>
    cases kind <;> simp only [List.cons_append, ResultsFollow, owedAfter, ih, and_assoc]

theorem owedAfter_append (owed : Option Val) (kinds kinds' : List StartKind) :
    owedAfter owed (kinds ++ kinds') = owedAfter (owedAfter owed kinds) kinds' := by
  induction kinds generalizing owed with
  | nil => rfl
  | cons kind kinds ih => cases kind <;> exact ih _

/-- What an accepted event does to the blocks of a message. -/
structure Stepped (c c' : Expected) (e : ClientEvent) : Prop where
  numbered : opens [e.frame] = List.range' c.next (c'.next - c.next)
  le : c.next ≤ c'.next
  admissible : Admissible (fun _ _ => True) c.blocks e.frame
  blocks : track c.blocks e.frame = c'.blocks
  follows : ResultsFollow c.call e.startKind?.toList
  call : owedAfter c.call e.startKind?.toList = c'.call
  settled : c'.opened ≠ none → c'.owed = none

theorem stepped_start {c c' : Expected} {index : ℕ} {id : Option Val} {e : ClientEvent}
    (hframe : e.frame = .start index ()) (h : c.start index id = some c')
    (hfollows : ResultsFollow c.owed e.startKind?.toList)
    (hcall : owedAfter c.owed e.startKind?.toList = id) : Stepped c c' e := by
  rw [Expected.start] at h
  split_ifs at h with hfree
  obtain ⟨hopened, rfl⟩ := hfree
  cases h
  have hcalled : c.call = c.owed := by rw [Expected.call, hopened]
  have hblocks : c.blocks = [] := by rw [Expected.blocks, hopened]; rfl
  refine ⟨?_, Nat.le_succ _, ?_, ?_, hcalled ▸ hfollows, hcalled ▸ hcall, fun _ => rfl⟩
  · rw [hframe, Nat.add_sub_cancel_left]
    rfl
  · rw [hframe, hblocks]
    rfl
  · rw [hframe, hblocks]
    rfl

theorem stepped_other {c : Expected} {e : ClientEvent} (hframe : e.frame = .other)
    (hkind : e.startKind? = none) (hsettled : c.opened ≠ none → c.owed = none) : Stepped c c e where
  numbered := by
    rw [hframe, Nat.sub_self]
    rfl
  le := Nat.le_refl _
  admissible := by
    rw [hframe]
    trivial
  blocks := by
    rw [hframe]
    rfl
  follows := by
    rw [hkind]
    trivial
  call := by
    rw [hkind]
    rfl
  settled := hsettled

theorem expect_stepped {c c' : Expected} {e : ClientEvent} (h : expect c e = some c')
    (hsettled : c.opened ≠ none → c.owed = none) : Stepped c c' e := by
  cases e with
  | serverToolUseStart i id name =>
    rw [expect] at h
    split_ifs at h with howed
    refine stepped_start rfl h ?_ rfl
    exact ⟨howed, trivial⟩
  | resultStart i block =>
    rw [expect] at h
    split_ifs at h with howed
    exact stepped_start rfl h ⟨howed, trivial⟩ rfl
  | messageDelta stopReason usage =>
    cases h
    exact stepped_other rfl rfl hsettled
  | forward event =>
    cases event with
    | contentBlockStart i block =>
      rw [expect] at h
      split_ifs at h with howed
      exact stepped_start rfl h ⟨howed, trivial⟩ rfl
    | contentBlockStop i =>
      rw [expect] at h
      cases hopened : c.opened with
      | none => simp [hopened] at h
      | some b =>
        obtain ⟨j, id⟩ := b
        simp only [hopened] at h
        split_ifs at h with hindex
        subst hindex
        cases h
        have hblocks : c.blocks = [(i, ())] := by rw [Expected.blocks, hopened]; rfl
        refine ⟨?_, Nat.le_refl _, ?_, ?_, trivial, ?_, fun hnone => absurd rfl hnone⟩
        · rw [Nat.sub_self]
          rfl
        · rw [hblocks]
          exact ⟨(), rfl⟩
        · rw [hblocks]
          simp [ClientEvent.frame, track, Expected.blocks]
        · rw [Expected.call, hopened]
          rfl
    | _ =>
      cases h
      exact stepped_other rfl rfl hsettled

/-- What an accepted message looks like from any expectation on. -/
theorem expectAll_spec {c c' : Expected} {es : List ClientEvent} (h : expectAll c es = some c')
    (hsettled : c.opened ≠ none → c.owed = none) :
    opens (es.map (·.frame)) = List.range' c.next (c'.next - c.next) ∧ c.next ≤ c'.next ∧
      Disciplined (fun _ _ => True) c.blocks (es.map (·.frame)) ∧
      openAfter c.blocks (es.map (·.frame)) = c'.blocks ∧
      ResultsFollow c.call (es.filterMap (·.startKind?)) ∧
      owedAfter c.call (es.filterMap (·.startKind?)) = c'.call := by
  induction es generalizing c with
  | nil =>
    cases h
    exact ⟨by rw [Nat.sub_self]; rfl, Nat.le_refl _, trivial, rfl, trivial, rfl⟩
  | cons e es ih =>
    rw [expectAll] at h
    obtain ⟨c₁, hstep, hrest⟩ := Option.bind_eq_some_iff.1 h
    have hs := expect_stepped hstep hsettled
    obtain ⟨hnumbered, hle, hdisciplined, hopen, hfollows, hcall⟩ := ih hrest hs.settled
    have hkinds : (e :: es).filterMap (·.startKind?) =
        e.startKind?.toList ++ es.filterMap (·.startKind?) := by
      rw [List.filterMap_cons]
      cases e.startKind? <;> rfl
    refine ⟨?_, Nat.le_trans hs.le hle, ⟨hs.admissible, ?_⟩, ?_, ?_, ?_⟩
    · have hcons : opens ((e :: es).map (·.frame)) = opens [e.frame] ++ opens (es.map (·.frame)) :=
        List.filterMap_append (l := [e.frame])
      have hsplit : c'.next - c.next = (c₁.next - c.next) + (c'.next - c₁.next) := by
        have := hs.le
        omega
      have hnext : c₁.next = c.next + (c₁.next - c.next) := by
        have := hs.le
        omega
      rw [hcons, hs.numbered, hnumbered, hsplit, ← List.range'_append_1, ← hnext]
    · rw [hs.blocks]
      exact hdisciplined
    · rw [List.map_cons, openAfter_cons, hs.blocks]
      exact hopen
    · rw [hkinds, resultsFollow_append, hs.call]
      exact ⟨hs.follows, hfollows⟩
    · rw [hkinds, owedAfter_append, hs.call]
      exact hcall

/-- An accepted message is a row of blocks, complete if nothing more is expected. -/
theorem blockRow_of_expectAll {c : Expected} {written : List ClientEvent}
    (h : expectAll .init written = some c) :
    BlockRow written ∧ (c.opened = none → c.owed = none → Complete written) := by
  obtain ⟨hnumbered, -, hdisciplined, hopen, hfollows, hcall⟩ :=
    expectAll_spec h (fun _ => rfl)
  refine ⟨⟨?_, hdisciplined, hfollows⟩, fun hopened howed => ⟨?_, ?_⟩⟩
  · rw [hnumbered, List.length_range', List.range_eq_range']
    rfl
  · refine hopen.trans ?_
    rw [Expected.blocks, hopened]
    rfl
  · refine hcall.trans ?_
    rw [Expected.call, hopened]
    exact howed

/-! ## One turn -/

/-- The part of an upstream event that opens or closes a block. -/
def turnFrame : AnthropicStreamEventData → BlockEvent ℕ Unit Unit
  | .contentBlockStart i _ => .start i ()
  | .contentBlockStop i => .stop i
  | _ => .other

/-- The blocks of a turn are numbered from zero, one is open at a time, and all are closed at the
end. -/
structure TurnGrammar (events : List AnthropicStreamEventData) : Prop where
  numbered : opens (events.map turnFrame) = List.range (opens (events.map turnFrame)).length
  disciplined : Disciplined (fun _ _ => True) [] (events.map turnFrame)
  closed : openAfter [] (events.map turnFrame) = []

instance (events : List AnthropicStreamEventData) : Decidable (TurnGrammar events) :=
  decidable_of_iff
    (opens (events.map turnFrame) = List.range (opens (events.map turnFrame)).length ∧
      Disciplined (fun _ _ => True) [] (events.map turnFrame) ∧
      openAfter [] (events.map turnFrame) = [])
    ⟨fun h => ⟨h.1, h.2.1, h.2.2⟩, fun h => ⟨h.numbered, h.disciplined, h.closed⟩⟩

/-- The block that is open upstream is open for the client. -/
def Mirrors (d : Dispatch) (blocks : List (ℕ × Unit)) (opened : Option (ℕ × Option Val)) : Prop :=
  match blocks with
  | [] => opened = none ∧ ∀ i, d.upstreamToClient.get i = none
  | (u, _) :: _ =>
    ∃ b, d.upstreamToClient.get u = some b ∧ (∀ i, i ≠ u → d.upstreamToClient.get i = none) ∧
      opened = some (b.clientIndex, b.toolUse.map (·.1)) ∧
      (b.toolUse.isSome → b.blockKind = .toolUse)

theorem Mirrors.of_eq {d d' : Dispatch} {blocks : List (ℕ × Unit)}
    {opened : Option (ℕ × Option Val)} (h : Mirrors d blocks opened)
    (hopen : d'.upstreamToClient = d.upstreamToClient) : Mirrors d' blocks opened := by
  rw [Mirrors.eq_def] at h ⊢
  rwa [hopen]

/-- The client has accepted what is written, and expects what the turn brings next. -/
def InStep (blocks : List (ℕ × Unit)) (d : Dispatch) : Prop :=
  ∃ c, expectAll .init d.written = some c ∧ c.next = d.next ∧ c.owed = none ∧
    Mirrors d blocks c.opened

theorem expectAll_concat {c c' : Expected} {written : List ClientEvent}
    (h : expectAll .init written = some c) {e : ClientEvent} (he : expect c e = some c') :
    expectAll .init (written ++ [e]) = some c' := by
  rw [expectAll_append, h, Option.bind_some, expectAll, he]
  rfl

namespace InStep

variable {platform : Platform} {executor : Executor} {blocks : List (ℕ × Unit)} {d d' : Dispatch}

/-- Events that are no part of a block change nothing. -/
theorem other (h : InStep blocks d) {e : ClientEvent} (he : ∀ c, expect c e = some c)
    (hwritten : d'.written = d.written ++ [e]) (hnext : d'.next = d.next)
    (hopen : d'.upstreamToClient = d.upstreamToClient) : InStep blocks d' := by
  obtain ⟨c, hall, hcn, howed, hmirrors⟩ := h
  refine ⟨c, hwritten ▸ expectAll_concat hall (he c), hcn.trans hnext.symm, howed, ?_⟩
  exact hmirrors.of_eq hopen

theorem silent (h : InStep blocks d) (hwritten : d'.written = d.written) (hnext : d'.next = d.next)
    (hopen : d'.upstreamToClient = d.upstreamToClient) : InStep blocks d' := by
  obtain ⟨c, hall, hcn, howed, hmirrors⟩ := h
  refine ⟨c, hwritten ▸ hall, hcn.trans hnext.symm, howed, ?_⟩
  exact hmirrors.of_eq hopen

theorem start (h : InStep [] d) (index : ℕ) (block : ContentBlock) :
    InStep [(index, ())] (handleBlockStart index block d) := by
  obtain ⟨c, hall, hcn, howed, hopened, hempty⟩ := h
  have hget : (handleBlockStart index block d).upstreamToClient.get index =
      some ⟨d.next, "", webTool? block, "", "", block.kind⟩ := Entries.get_set_self _ _ _
  have hothers : ∀ i, i ≠ index →
      (handleBlockStart index block d).upstreamToClient.get i = none := fun i hi =>
    (Entries.get_set_of_ne _ _ hi).trans (hempty i)
  have hexpect : expect c (startEvent d.next block) =
      some ⟨d.next + 1, some (d.next, (webTool? block).map (·.1)), none⟩ := by
    rw [startEvent]
    cases hweb : webTool? block with
    | none => simp [expect, Expected.start, howed, hopened, hcn]
    | some call => simp [expect, Expected.start, howed, hopened, hcn]
  exact ⟨_, expectAll_concat hall hexpect, rfl, rfl, _, hget, hothers, rfl, webTool?_kind⟩

theorem delta (h : InStep blocks d) {index : BlockIndex} {delta : BlockDelta}
    (hd : handleBlockDelta index delta d = .ok d') : InStep blocks d' := by
  rw [handleBlockDelta] at hd
  split at hd
  · cases hd
    exact h
  · next key b hopen =>
    have hget := Dispatch.get_of_openAt hopen
    cases hadd : b.add delta with
    | error e =>
      rw [hadd] at hd
      cases hd
    | ok b' =>
      rw [hadd] at hd
      cases hd
      obtain ⟨_, _, _, rfl⟩ := OpenBlock.add_eq hadd
      obtain ⟨c, hall, hcn, howed, hmirrors⟩ := h
      refine ⟨c, expectAll_concat hall rfl, hcn, howed, ?_⟩
      cases blocks with
      | nil =>
        -- nothing is open, so the delta has found nothing
        rw [hmirrors.2 key] at hget
        cases hget
      | cons block rest =>
        obtain ⟨b₀, hb₀, hothers, hopened, hkind⟩ := hmirrors
        have hkey : key = block.1 := by
          by_contra hne
          rw [hothers key hne] at hget
          cases hget
        subst hkey
        obtain rfl : b = b₀ := Option.some.inj (hget.symm.trans hb₀)
        exact ⟨_, Entries.get_set_self _ _ _, fun i hi =>
          (Entries.get_set_of_ne _ _ hi).trans (hothers i hi), hopened, hkind⟩

theorem stop {index : ℕ} (h : InStep [(index, ())] d) :
    InStep [] (handleBlockStop platform executor index d) := by
  obtain ⟨c, hall, hcn, howed, b, hget, hothers, hopened, hkind⟩ := h
  have hempty : ∀ i, (d.upstreamToClient.delete index).get i = none := by
    intro i
    by_cases hi : i = index
    · subst hi
      exact Entries.get_delete_self _ _
    · rw [Entries.get_delete_of_ne _ hi, hothers i hi]
  have hstop : expect c (.forward (.contentBlockStop b.clientIndex)) =
      some { c with opened := none, owed := b.toolUse.map (·.1) } := by
    simp [expect, hopened]
  have hclosed := expectAll_concat hall hstop
  rw [handleBlockStop, hget]
  dsimp only
  cases htool : b.toolUse with
  | none =>
    rw [htool] at hclosed
    cases b.blockKind with
    | text => exact ⟨_, hclosed, hcn, rfl, rfl, hempty⟩
    | thinking => exact ⟨_, hclosed, hcn, rfl, rfl, hempty⟩
    | toolUse => exact ⟨_, hclosed, hcn, rfl, rfl, hempty⟩
  | some call =>
    obtain ⟨id, name⟩ := call
    rw [hkind (by rw [htool]; rfl)]
    rw [htool] at hclosed
    -- the block of the result comes next, under the id of the call
    have hresult : expect { c with opened := none, owed := some id }
        (.resultStart d.next (buildResultBlockForOutcome platform id
          (executeToolUse platform executor name (parseToolInput platform b.partialJson)
            d.execution).1)) = some ⟨d.next + 1, some (d.next, none), none⟩ := by
      simp [expect, Expected.start, buildResultBlockForOutcome, hcn]
    have hresultStop : expect ⟨d.next + 1, some (d.next, none), none⟩
        (.forward (.contentBlockStop d.next)) = some ⟨d.next + 1, none, none⟩ := by
      simp [expect]
    refine ⟨⟨d.next + 1, none, none⟩, ?_, rfl, rfl, rfl, hempty⟩
    have hall' := expectAll_concat (expectAll_concat hclosed hresult) hresultStop
    rw [List.append_assoc] at hall'
    exact hall'

/-- An event that the grammar of the turn admits keeps the client in step. -/
theorem event (h : InStep blocks d) {e : AnthropicStreamEventData}
    (hadmissible : Admissible (fun _ _ => True) blocks (turnFrame e))
    (hd : dispatchEvent platform executor e d = .ok d') :
    InStep (track blocks (turnFrame e)) d' := by
  cases e with
  | contentBlockStart index block =>
    cases hd
    obtain rfl : blocks = [] := hadmissible
    exact h.start index block
  | contentBlockDelta index delta => exact h.delta hd
  | contentBlockStop index =>
    cases hd
    obtain ⟨_, rfl⟩ := hadmissible
    have hclosed : track [(index, ())] (turnFrame (.contentBlockStop index)) = [] := by
      simp [turnFrame, track]
    rw [hclosed]
    exact h.stop
  | messageStart id model usage =>
    cases hd
    show InStep _ (if d.messageStartEmitted then d else _)
    split
    · exact h
    · exact h.other (fun _ => rfl) rfl rfl rfl
  | messageDelta stopReason usage =>
    cases hd
    exact h.silent rfl rfl rfl
  | messageStop =>
    cases hd
    exact h.silent rfl rfl rfl
  | ping =>
    cases hd
    exact h.other (fun _ => rfl) rfl rfl rfl
  | error message =>
    cases hd
    exact h.other (fun _ => rfl) rfl rfl rfl

end InStep

/-- The expectation with which a turn starts: its first block has the next index. -/
def StreamState.Expects (s : StreamState) : Prop :=
  expectAll .init s.written = some ⟨s.next, none, none⟩

theorem startTurn_inStep {s : StreamState} (h : s.Expects) : InStep [] (startTurn s) :=
  ⟨_, h, rfl, rfl, rfl, fun _ => rfl⟩

/-- Events that obey the grammar keep the client in step. -/
theorem dispatchAll_inStep {platform : Platform} {executor : Executor}
    {events : List AnthropicStreamEventData} {blocks : List (ℕ × Unit)} {d d' : Dispatch}
    (hevents : Disciplined (fun _ _ => True) blocks (events.map turnFrame)) (h : InStep blocks d)
    (hd : dispatchAll platform executor events d = (d', none)) :
    InStep (openAfter blocks (events.map turnFrame)) d' := by
  induction events generalizing blocks d with
  | nil =>
    cases hd
    exact h
  | cons e events ih =>
    rw [dispatchAll] at hd
    split at hd
    · cases hd
    · next d₁ heq => exact ih hevents.2 (h.event hevents.1 heq) hd

theorem dispatched_front (platform : Platform) (executor : Executor)
    (events : List AnthropicStreamEventData) (d : Dispatch) :
    dispatched platform executor events d <+: events := by
  induction events generalizing d with
  | nil => exact List.prefix_refl _
  | cons e events ih =>
    rw [dispatched]
    split
    · exact List.nil_prefix
    · next d₁ _ => exact (List.prefix_cons_inj e).2 (ih d₁)

section

variable {platform : Platform} {executor : Executor}

/-- A turn whose events obey the grammar keeps the client in step; unless an event throws, the next
turn starts where it has ended. -/
theorem streamTurn_expected (executor : Executor) {s : StreamState} (h : s.Expects)
    {frames : List (Option String)} {failure : Option Failure}
    (hturn : TurnGrammar (upstreamTurn platform failure frames .fresh).1) :
    ∃ c, expectAll .init (streamTurn platform executor frames failure s).ends.written = some c ∧
      ((∀ e, (readFrames platform executor failure frames .fresh (startTurn s)).2 ≠
          some (.type e)) →
        c = ⟨(streamTurn platform executor frames failure s).ends.next, none, none⟩) := by
  have hdispatched := (dispatched_front platform executor
    (upstreamTurn platform failure frames .fresh).1 (startTurn s)).map turnFrame
  obtain ⟨c, hc, -⟩ := dispatchAll_inStep (hturn.disciplined.of_prefix hdispatched)
    (startTurn_inStep h) (dispatchAll_turn platform executor failure frames .fresh (startTurn s))
  refine ⟨c, hc, fun hbroken => ?_⟩
  -- nothing has been thrown, so all events have been dispatched
  obtain ⟨hfst, hthrows⟩ := readFrames_dispatches platform executor
    failure frames .fresh (startTurn s)
  have hall : dispatchAll platform executor (upstreamTurn platform failure frames .fresh).1
      (startTurn s) = ((streamTurn platform executor frames failure s).ends, none) := by
    cases hd : dispatchAll platform executor (upstreamTurn platform failure frames .fresh).1
        (startTurn s) with
    | mk d thrown =>
      rw [hd] at hfst hthrows
      cases thrown with
      | some e => exact absurd (hthrows e rfl) (hbroken e)
      | none => rw [streamTurn, hfst]
  have hstep := dispatchAll_inStep hturn.disciplined (startTurn_inStep h) hall
  rw [hturn.closed] at hstep
  obtain ⟨c', hc', hnext, howed, hopened, -⟩ := hstep
  obtain rfl : c = c' := Option.some.inj (hc.symm.trans hc')
  rw [← hnext, ← howed, ← hopened]

theorem expectAll_quiet {c : Expected} {es : List ClientEvent}
    (h : ∀ e ∈ es, expect c e = some c) : expectAll c es = some c := by
  induction es with
  | nil => rfl
  | cons e es ih =>
    rw [expectAll, h e List.mem_cons_self, Option.bind_some]
    exact ih fun e' he' => h e' (List.mem_cons_of_mem e he')

theorem expect_finalEvents (c : Expected) (usageTotal : UsageTotal)
    {bufferedFinal : List AnthropicStreamEventData} (h : ∀ e ∈ bufferedFinal, e.endsMessage) :
    expectAll c (finalEvents usageTotal bufferedFinal) = some c := by
  refine expectAll_quiet fun event hevent => ?_
  obtain ⟨e, he, rfl⟩ := List.mem_map.1 hevent
  have hend := h e he
  cases e <;> first | rfl | cases hend

theorem endsMessage_of_mem_bufferedFinal (platform : Platform) (executor : Executor) 
    (frames : List (Option String)) (failure : Option Failure) (s : StreamState) :
    ∀ e ∈ (streamTurn platform executor frames failure s).ends.bufferedFinal, e.endsMessage := by
  obtain ⟨added, hadded⟩ :=
    streamTurn_written platform executor frames failure s
  rw [hadded.buffered]
  exact fun e he => (List.mem_filter.1 he).2

/-- What a run has written is accepted; unless something was thrown, nothing more is expected. -/
theorem streamLoop_expected {upstreamCall : ℕ → UpstreamAnswer} {left turn : ℕ} {s : StreamState}
    (hturns : ∀ i < (streamTurns platform executor upstreamCall turn left s).length,
      ∀ frames failure, upstreamCall (turn + i) = .stream frames failure →
        TurnGrammar (upstreamTurn platform failure frames .fresh).1)
    (h : s.Expects) :
    ∃ c, expectAll .init (streamLoop platform executor upstreamCall turn left s).written = some c ∧
      ((∀ e, (streamLoop platform executor upstreamCall turn left s).failure ≠ some (.type e)) →
        c.opened = none ∧ c.owed = none) := by
  induction left using Nat.strongRecOn generalizing turn s with
  | ind left ih =>
    obtain ⟨hwritten, -⟩ | ⟨frames, failure, hanswer, ⟨hwritten, hone, hfailure⟩ |
        ⟨hbroken, hone, hfailure, usageTotal, -, -, hwritten⟩ |
        ⟨hbroken, left', usageTotal, rfl, -, hmore, hfailure, -, hwritten⟩⟩ :=
      streamLoop_turns platform executor upstreamCall turn left s
    · rw [hwritten]
      exact ⟨_, h, fun _ => ⟨rfl, rfl⟩⟩
    · rw [hone] at hturns
      obtain ⟨c, hc, hdone⟩ :=
        streamTurn_expected executor h (hturns 0 Nat.one_pos frames failure hanswer)
      rw [hwritten]
      refine ⟨c, hc, fun hnothrow => ?_⟩
      obtain ⟨-, hfailure⟩ | ⟨e, hfailure⟩ := hfailure
      · rw [hdone fun e => hfailure ▸ hnothrow e]
        exact ⟨rfl, rfl⟩
      · exact absurd hfailure (hnothrow e)
    · rw [hone] at hturns
      obtain ⟨c, hc, hdone⟩ :=
        streamTurn_expected executor h (hturns 0 Nat.one_pos frames failure hanswer)
      rw [hwritten, expectAll_append, hc, Option.bind_some,
        expect_finalEvents c usageTotal
          (endsMessage_of_mem_bufferedFinal platform executor frames failure s)]
      refine ⟨c, rfl, fun _ => ?_⟩
      rw [hdone fun e => by simp [hbroken]]
      exact ⟨rfl, rfl⟩
    · rw [hmore] at hturns
      obtain ⟨c, hc, hdone⟩ := streamTurn_expected executor h
        (hturns 0 (Nat.succ_pos _) frames failure hanswer)
      rw [hdone fun e => by simp [hbroken]] at hc
      rw [hwritten, hfailure]
      refine ih left' (Nat.lt_succ_self left') (fun i hi frames failure hnext => ?_) hc
      have hi' := hturns (i + 1) (Nat.succ_lt_succ hi) frames failure
      rw [← Nat.add_assoc, Nat.add_right_comm] at hi'
      exact hi' hnext

/-! ## Frames of messages -/

def ClientEvent.isMessageStart : ClientEvent → Bool
  | .forward (.messageStart _ _ _) => true
  | _ => false

def ClientEvent.isTerminal : ClientEvent → Bool
  | .forward e => e.endsMessage
  | .messageDelta _ _ => true
  | _ => false

def startsMessage : AnthropicStreamEventData → Bool
  | .messageStart _ _ _ => true
  | _ => false

def messageStarts (written : List ClientEvent) : ℕ := written.countP (·.isMessageStart)

/-- The events of a turn so far have started the message if it was not started before, and have
not ended it. -/
structure Framed (s : StreamState) (done : List AnthropicStreamEventData) (d : Dispatch) : Prop where
  emitted : d.messageStartEmitted = (s.messageStartEmitted || done.any startsMessage)
  starts : messageStarts d.written = if d.messageStartEmitted then 1 else 0
  running : ∀ e ∈ d.written, e.isTerminal = false

namespace Framed

variable {s : StreamState} {done : List AnthropicStreamEventData} {d d' : Dispatch}
  {e : AnthropicStreamEventData}

theorem quiet (h : Framed s done d) (he : startsMessage e = false)
    (hemitted : d'.messageStartEmitted = d.messageStartEmitted) {added : List ClientEvent}
    (hwritten : d'.written = d.written ++ added)
    (hadded : ∀ e ∈ added, e.isMessageStart = false ∧ e.isTerminal = false) :
    Framed s (done ++ [e]) d' := by
  refine ⟨?_, ?_, fun ev hev => ?_⟩
  · rw [hemitted, h.emitted, List.any_append, List.any_cons, he]
    simp
  · have hnone : added.countP (·.isMessageStart) = 0 :=
      List.countP_eq_zero.2 fun e' he' => by simp [(hadded e' he').1]
    rw [hemitted, ← h.starts, hwritten, messageStarts, List.countP_append, hnone]
    rfl
  · rw [hwritten] at hev
    obtain hev | hev := List.mem_append.1 hev
    · exact h.running ev hev
    · exact (hadded ev hev).2

theorem startEvent_quiet (next : ℕ) (block : ContentBlock) :
    (startEvent next block).isMessageStart = false ∧ (startEvent next block).isTerminal = false := by
  rw [startEvent]
  split <;> exact ⟨rfl, rfl⟩

theorem event (h : Framed s done d) (hd : dispatchEvent platform executor e d = .ok d') :
    Framed s (done ++ [e]) d' := by
  cases e with
  | contentBlockStart index block =>
    cases hd
    exact h.quiet rfl rfl rfl (by simpa using startEvent_quiet d.next block)
  | contentBlockDelta index delta =>
    rw [dispatchEvent, handleBlockDelta] at hd
    split at hd
    · cases hd
      exact h.quiet rfl rfl (List.append_nil _).symm (by simp)
    · next key b _ =>
      cases hadd : b.add delta with
      | error e =>
        rw [hadd] at hd
        cases hd
      | ok b' =>
        rw [hadd] at hd
        cases hd
        exact h.quiet rfl rfl rfl (List.forall_mem_singleton.2 ⟨rfl, rfl⟩)
  | contentBlockStop index =>
    cases hd
    rw [handleBlockStop]
    split
    · exact h.quiet rfl rfl (List.append_nil _).symm (by simp)
    · dsimp only
      split
      · exact h.quiet rfl rfl rfl (List.forall_mem_singleton.2 ⟨rfl, rfl⟩)
      · exact h.quiet rfl rfl rfl (List.forall_mem_singleton.2 ⟨rfl, rfl⟩)
      · exact h.quiet rfl rfl (List.append_assoc ..) (by simp [ClientEvent.isMessageStart,
          ClientEvent.isTerminal, AnthropicStreamEventData.endsMessage])
      · exact h.quiet rfl rfl rfl (List.forall_mem_singleton.2 ⟨rfl, rfl⟩)
  | messageStart id model usage =>
    cases hd
    show Framed s _ (if d.messageStartEmitted then d else _)
    split
    · next hemitted =>
      refine ⟨?_, h.starts, h.running⟩
      rw [h.emitted] at hemitted ⊢
      rw [List.any_append, ← Bool.or_assoc, hemitted, Bool.true_or]
    · next hemitted =>
      have hnone : messageStarts d.written = 0 := by rw [h.starts, if_neg hemitted]
      refine ⟨?_, ?_, fun ev hev => ?_⟩
      · simp [startsMessage]
      · have hone : messageStarts [.forward (.messageStart id model usage)] = 1 := rfl
        rw [messageStarts, List.countP_append, ← messageStarts, ← messageStarts, hnone, hone]
        rfl
      · obtain hev | hev := List.mem_append.1 hev
        · exact h.running ev hev
        · obtain rfl := List.mem_singleton.1 hev
          rfl
  | messageDelta stopReason usage =>
    cases hd
    exact h.quiet rfl rfl (List.append_nil _).symm (by simp)
  | messageStop =>
    cases hd
    exact h.quiet rfl rfl (List.append_nil _).symm (by simp)
  | ping =>
    cases hd
    exact h.quiet rfl rfl rfl (List.forall_mem_singleton.2 ⟨rfl, rfl⟩)
  | error message =>
    cases hd
    exact h.quiet rfl rfl rfl (List.forall_mem_singleton.2 ⟨rfl, rfl⟩)

end Framed

/-- The message has been started if it was to be, and has not been ended. -/
def StreamState.Running (s : StreamState) : Prop :=
  (messageStarts s.written = if s.messageStartEmitted then 1 else 0) ∧
    ∀ e ∈ s.written, e.isTerminal = false

theorem streamTurn_framed (platform : Platform) (executor : Executor) {s : StreamState} (h : s.Running)
    (frames : List (Option String)) (failure : Option Failure) :
    Framed s (streamTurn platform executor frames failure s).events
      (streamTurn platform executor frames failure s).ends := by
  have hstart : Framed s [] (startTurn s) := ⟨(Bool.or_false _).symm, h.1, h.2⟩
  have hall := dispatchAll_invariant (fun done e => done ++ [e]) (Framed s)
    (fun _ _ _ _ h hd => h.event hd) hstart
    (dispatchAll_turn platform executor failure frames .fresh
      (startTurn s))
  rwa [foldl_concat, List.nil_append] at hall

theorem messageStarts_finalEvents (usageTotal : UsageTotal)
    {bufferedFinal : List AnthropicStreamEventData} (h : ∀ e ∈ bufferedFinal, e.endsMessage) :
    messageStarts (finalEvents usageTotal bufferedFinal) = 0 := by
  refine List.countP_eq_zero.2 fun event hevent => ?_
  obtain ⟨e, he, rfl⟩ := List.mem_map.1 hevent
  have hend := h e he
  cases e <;> first | exact Bool.false_ne_true | cases hend

/-- One of the turns starts the message. -/
def startedIn (turns : List StreamTurn) : Bool := turns.any fun t => t.events.any startsMessage

/-- The message ends with the terminal events of the last turn, and with nothing else. -/
structure EndsWith (turns : List StreamTurn) (written : List ClientEvent) : Prop where
  ends : ∃ body usageTotal last, turns.getLast? = some last ∧
    written = body ++ finalEvents usageTotal (last.events.filter (·.endsMessage)) ∧
    ∀ e ∈ body, e.isTerminal = false

/-- A run starts the message once, if a turn starts it, and ends it with the last turn, unless it
breaks off. -/
theorem streamLoop_framed (platform : Platform) (executor : Executor) 
    (upstreamCall : ℕ → UpstreamAnswer) (turn left : ℕ) {s : StreamState} (h : s.Running) :
    let run := streamLoop platform executor upstreamCall turn left s
    let turns := streamTurns platform executor upstreamCall turn left s
    (messageStarts run.written = if s.messageStartEmitted || startedIn turns then 1 else 0) ∧
      (run.failure ≠ none → ∀ e ∈ run.written, e.isTerminal = false) ∧
      (run.failure = none → EndsWith turns run.written) := by
  induction left using Nat.strongRecOn generalizing turn s with
  | ind left ih =>
    intro run turns
    obtain ⟨hwritten, hnone, hfailure⟩ | ⟨frames, failure, hanswer, ⟨hwritten, hone, hfailure⟩ |
        ⟨hbroken, hone, hfailure, usageTotal, -, -, hwritten⟩ |
        ⟨hbroken, left', usageTotal, rfl, -, hmore, hfailure, -, hwritten⟩⟩ :=
      streamLoop_turns platform executor upstreamCall turn left s
    · refine ⟨?_, fun _ => hwritten ▸ h.2, fun hnofailure => ?_⟩
      · show messageStarts run.written = _
        rw [hwritten, h.1, show turns = [] from hnone]
        simp [startedIn]
      · obtain hfailure | hfailure := hfailure <;> rw [hnofailure] at hfailure <;> cases hfailure
    · have hframed := streamTurn_framed platform executor h frames failure
      refine ⟨?_, fun _ => hwritten ▸ hframed.running, fun hnofailure => ?_⟩
      · rw [hwritten, hframed.starts, hframed.emitted, show turns = _ from hone]
        simp [startedIn]
      · obtain ⟨hbroken, hfailure⟩ | ⟨e, hfailure⟩ := hfailure
        · exact absurd (hfailure.symm.trans hnofailure) hbroken
        · cases hfailure.symm.trans hnofailure
    · have hframed := streamTurn_framed platform executor h frames failure
      have hbuffered := endsMessage_of_mem_bufferedFinal platform executor frames failure s
      obtain ⟨added, hadded⟩ :=
        streamTurn_written platform executor frames failure s
      refine ⟨?_, fun hbroke => absurd hfailure hbroke, fun _ => ⟨_, usageTotal,
        streamTurn platform executor frames failure s, ?_, ?_, hframed.running⟩⟩
      · rw [hwritten, messageStarts, List.countP_append, ← messageStarts, ← messageStarts,
          messageStarts_finalEvents usageTotal hbuffered, Nat.add_zero, hframed.starts,
          hframed.emitted, show turns = _ from hone]
        simp [startedIn]
      · rw [show turns = _ from hone]
        rfl
      · rw [← hadded.buffered]
        exact hwritten
    · have hframed := streamTurn_framed platform executor h frames failure
      obtain ⟨hstarts, hbroke, hdone⟩ := ih left' (Nat.lt_succ_self left') (turn + 1)
        (show ((streamTurn platform executor frames failure s).ends.followUp platform s.messages
          usageTotal).Running from ⟨hframed.starts, hframed.running⟩)
      refine ⟨?_, ?_, ?_⟩
      · have hemitted : ((streamTurn platform executor frames failure s).ends.followUp platform
            s.messages usageTotal).messageStartEmitted = _ := hframed.emitted
        rw [hwritten, hstarts, hemitted, show turns = _ from hmore, Bool.or_assoc]
        rfl
      · rw [hwritten, hfailure]
        exact hbroke
      · rw [hwritten, hfailure]
        intro hnofailure
        obtain ⟨body, total, last, hlast, hends, hbody⟩ := hdone hnofailure
        refine ⟨body, total, last, ?_, hends, hbody⟩
        rw [show turns = _ from hmore, List.getLast?_cons, hlast]
        rfl

/-! ## Runs -/

variable (platform executor)

/-- The turns that a run takes obey the grammar. -/
def TurnsObey (upstreamCall : ℕ → UpstreamAnswer) (turns : List StreamTurn) : Prop :=
  ∀ i < turns.length, ∀ frames failure, upstreamCall i = .stream frames failure →
    TurnGrammar (upstreamTurn platform failure frames .fresh).1

/-- What is written for turns that obey the grammar is one row of blocks, complete unless an event
throws; the message is started once if a turn starts it; and it is ended by the terminal events of
the last turn, unless the run breaks off. -/
theorem streamed_message (upstreamCall : ℕ → UpstreamAnswer) (messages : List AnthropicMessage)
    (declared : List WebToolDecl) :
    let run := runStreamingAgent platform executor upstreamCall messages declared
    let turns := streamTurns platform executor upstreamCall 0 (MAX_AGENT_TURNS - 1)
      (initialStream messages declared)
    TurnsObey platform upstreamCall turns →
      BlockRow run.written ∧ ((∀ e, run.failure ≠ some (.type e)) → Complete run.written) ∧
        (messageStarts run.written = if startedIn turns then 1 else 0) ∧
        (run.failure ≠ none → ∀ e ∈ run.written, e.isTerminal = false) ∧
        (run.failure = none → EndsWith turns run.written) := by
  intro run turns hturns
  have hobey : ∀ i < turns.length, ∀ frames failure, upstreamCall (0 + i) = .stream frames failure →
      TurnGrammar (upstreamTurn platform failure frames .fresh).1 := by
    intro i hi frames failure hanswer
    rw [Nat.zero_add] at hanswer
    exact hturns i hi frames failure hanswer
  obtain ⟨c, hc, hdone⟩ := streamLoop_expected hobey (rfl : (initialStream messages declared).Expects)
  obtain ⟨hrow, hcomplete⟩ := blockRow_of_expectAll hc
  obtain ⟨hstarts, hbroke, hends⟩ := streamLoop_framed platform executor upstreamCall 0
    (MAX_AGENT_TURNS - 1) (show (initialStream messages declared).Running from
      ⟨rfl, fun e he => nomatch he⟩)
  exact ⟨hrow, fun hnothrow => hcomplete (hdone hnothrow).1 (hdone hnothrow).2, hstarts, hbroke, hends⟩

end

/-- A search, the chunk that finishes its turn, and a turn with a text that finishes twice. -/
def messageChunks : List Json :=
  searchChunks ++
    [chunkOf [("content", .string "done")] (.string "stop"), chunkOf [] (.string "stop")]

/-- A search and a text, in two turns. -/
def searchThenText (i : ℕ) : UpstreamAnswer :=
  if i = 0 then .stream [some "a", some "ab"] none else .stream [some "abc"] none

theorem streamed_message_search :
    let run := runStreamingAgent (tablePlatform messageChunks) idleExecutor searchThenText []
      [searchDecl]
    let turns := streamTurns (tablePlatform messageChunks) idleExecutor searchThenText 0
      (MAX_AGENT_TURNS - 1) (initialStream [] [searchDecl])
    BlockRow run.written ∧ ((∀ e, run.failure ≠ some (.type e)) → Complete run.written) ∧
      (messageStarts run.written = if startedIn turns then 1 else 0) ∧
      (run.failure ≠ none → ∀ e ∈ run.written, e.isTerminal = false) ∧
      (run.failure = none → EndsWith turns run.written) := by
  refine streamed_message _ _ _ _ _ fun i _ frames failure hanswer => ?_
  rw [searchThenText] at hanswer
  split at hanswer <;> cases hanswer <;> decide +kernel

/-- The message ends with one `message_delta` and one `message_stop`. -/
def EndsOnce (written : List ClientEvent) : Prop :=
  ∃ body stopReason usage,
    written = body ++ [.messageDelta stopReason usage, .forward .messageStop] ∧
      ∀ e ∈ body, e.isTerminal = false

theorem EndsOnce.count {written : List ClientEvent} (h : EndsOnce written) :
    written.countP (·.isTerminal) = 2 := by
  obtain ⟨body, stopReason, usage, rfl, hbody⟩ := h
  have hnone : body.countP (·.isTerminal) = 0 :=
    List.countP_eq_zero.2 fun e he => by simp [hbody e he]
  rw [List.countP_append, hnone]
  rfl

/-- A turn that finishes twice. -/
theorem not_all_messages_once :
    ¬ ∀ (platform : Platform) (executor : Executor) (upstreamCall : ℕ → UpstreamAnswer)
        (messages : List AnthropicMessage) (declared : List WebToolDecl),
      TurnsObey platform upstreamCall (streamTurns platform executor upstreamCall 0
          (MAX_AGENT_TURNS - 1) (initialStream messages declared)) →
        let run := runStreamingAgent platform executor upstreamCall messages declared
        BlockRow run.written ∧ Complete run.written ∧ messageStarts run.written = 1 ∧
          EndsOnce run.written := by
  intro h
  obtain ⟨-, -, -, honce⟩ := h (tablePlatform messageChunks) idleExecutor
    (fun _ => .stream [some "abc", some "abcd"] none) [] [searchDecl]
    (fun i _ frames failure hanswer => by cases hanswer; decide +kernel)
  exact absurd honce.count (by decide +kernel)

end Maximal.WebTools
