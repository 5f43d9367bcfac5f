import Maximal.WebTools.CarriedTurns
import Maximal.WebTools.StopReason

/-!
# Web tools: the two agents agree

The same upstream turns, once as whole responses and once as streams, lead both agents to the
same executor calls and the same response.

## Main definitions

- `Carries` — a stream carries the blocks, the stop reason and the usage of a response
- `Alike` — the turns that both agents treat alike
- `deliveredContent`, `deliveredUsage` — the response that a client reads from a stream

## Main results

- `turn_agrees` — what is shown of a turn, and the executions it takes
- `agents_agree` — whole runs
-/

namespace Maximal.WebTools

open Js

/-! ## Turns given twice -/

def isNumber : Val → Bool
  | some (.number _) => true
  | _ => false

/-- The usage of a stream, as a whole response reports it. -/
def wholeUsage (u : Usage) : TurnUsage where
  inputTokens := some (.number u.inputTokens)
  outputTokens := some u.outputTokens
  cacheReadInputTokens := u.cacheReadInputTokens

/-- The counts of a usage are numbers. -/
def IsCounted (u : Usage) : Prop :=
  isNumber (some u.outputTokens) ∧ (u.cacheReadInputTokens = none ∨ isNumber u.cacheReadInputTokens)

/-- The stream of the turn starts its message, brings the blocks one after another and ends the
message; the response has the same blocks, thinking aside, the same stop reason and usage. -/
structure Carries (platform : Platform) (answer : UpstreamAnswer) (resp : AnthropicResponse)
    (blocks : List CarriedBlock) : Prop where
  stream : ∃ frames failure id model usage u, answer = .stream frames failure ∧
    upstreamTurn platform failure frames .fresh =
      (.messageStart id model usage ::
        (blockEvents 0 blocks ++ [.messageDelta resp.stopReason u, .messageStop]), none) ∧
    IsCounted u ∧ resp.usage = wholeUsage u
  wellFormed : ∀ b ∈ blocks, b.WellFormed
  content : resp.content.filter (·.thinking?.isNone) = blocks.filterMap (·.whole platform)
  noCost : resp.totalNanoAiu = none

/-- Web tools are called only to be answered, under ids of their own, and the arguments of calls
are objects. -/
structure Alike (platform : Platform) (resp : AnthropicResponse) (blocks : List CarriedBlock) :
    Prop where
  stops : ours resp.content ≠ [] → resp.stopReason = .reason .toolUse
  distinct : ((ours resp.content).map (·.1.id)).Nodup
  others : ∀ tu ∈ toolUses resp.content, isWebToolName tu.name = false →
    tu.id ∉ (ours resp.content).map (·.1.id)
  arguments : ∀ b ∈ blocks, b.start.kind = .toolUse →
    parseToolInput platform b.text = parseToolCallArguments platform.parse (some (.string b.text))

/-! ## What is delivered -/

def SynthesizedBlock.isThinking : SynthesizedBlock → Bool
  | .assistant block => block.thinking?.isSome
  | _ => false

/-- A content without its thinking blocks. -/
def visible (content : List SynthesizedBlock) : List SynthesizedBlock :=
  content.filter (!·.isThinking)

/-- The content that a client reads from a stream, thinking aside. -/
def deliveredContent (platform : Platform) (written : List ClientEvent) : List SynthesizedBlock :=
  (readClient written).filterMap (·.shown platform)

def deliveredUsage (written : List ClientEvent) : Option UsageTotal :=
  written.foldl (fun usage event =>
    match event with
    | .messageDelta _ usage => some usage
    | _ => usage) none

section

variable {platform : Platform} {executor : Executor}

/-! ## One turn -/

theorem name_of_toolName? {name : Val} {tool : ToolName} (h : toolName? name = some tool) :
    name = some (.string tool.text) := by
  rcases name with _ | j
  · cases h
  · cases j with
    | string s =>
      simp only [toolName?, Val.asString] at h
      split at h
      · next hs =>
        cases h
        rw [hs]
      · split at h
        · next hs =>
          cases h
          rw [hs]
        · cases h
    | _ => cases h

theorem tripById_of_mem {trips : List RoundTrip} (h : (trips.map (·.toolUseId)).Nodup)
    {trip : RoundTrip} (hmem : trip ∈ trips) : tripById trips trip.toolUseId = some trip := by
  obtain ⟨found, hfound⟩ := Option.isSome_iff_exists.1
    (tripById_isSome (List.mem_map_of_mem hmem))
  have hid : found.toolUseId = trip.toolUseId := by
    simpa using List.find?_some hfound
  have hin : found ∈ trips := List.mem_reverse.1 (List.mem_of_find?_eq_some hfound)
  rw [hfound, List.inj_on_of_nodup_map h hin hmem hid]

theorem tripById_eq_none {trips : List RoundTrip} {id : Val}
    (h : id ∉ trips.map (·.toolUseId)) : tripById trips id = none := by
  rw [tripById, List.find?_eq_none]
  intro trip htrip heq
  exact h (List.mem_map.2 ⟨trip, List.mem_reverse.1 htrip, of_decide_eq_true heq⟩)

theorem weaveTurn_eq (platform : Platform) (turn : Turn) :
    weaveTurn platform turn = turn.assistant.flatMap (weaveBlock platform turn.trips) := by
  rw [weaveTurn]
  split
  · next hempty =>
    rw [List.isEmpty_iff.1 hempty, List.map_eq_flatMap]
    congr 1
    funext block
    rw [weaveBlock]
    cases block.toolUse? <;> rfl
  · rfl

/-- What becomes of a block in a whole response, for round trips that answer its calls. -/
theorem block_agrees (trips : List RoundTrip) {b : CarriedBlock}
    (harguments : b.start.kind = .toolUse → parseToolInput platform b.text =
      parseToolCallArguments platform.parse (some (.string b.text)))
    (x : Execution)
    (htrips : ∀ o ∈ (executeAll platform executor (ours (b.whole platform).toList) x).1,
      tripById trips o.1.id = some ⟨o.1.id, o.2⟩)
    (hothers : ∀ tu ∈ toolUses (b.whole platform).toList,
      isWebToolName tu.name = false → tripById trips tu.id = none) :
    (b.whole platform).toList.flatMap (weaveBlock platform trips) =
        shownOf platform b (webOutcome platform executor b x).1 ∧
      executeAll platform executor (ours (b.whole platform).toList) x =
        ((webOutcome platform executor b x).1.toList, (webOutcome platform executor b x).2) := by
  obtain ⟨start, deltas⟩ := b
  cases start with
  | text text => exact ⟨rfl, rfl⟩
  | thinking thinking => exact ⟨rfl, rfl⟩
  | toolUse id name =>
    have hinput := harguments rfl
    have hwhole : CarriedBlock.whole platform ⟨.toolUse id name, deltas⟩ = some (.toolUse
        ⟨id, name, parseToolInput platform (CarriedBlock.text ⟨.toolUse id name, deltas⟩)⟩) := by
      rw [hinput]
      rfl
    rw [hwhole] at htrips hothers ⊢
    cases hname : toolName? name with
    | none =>
      have hweb : webTool? (.toolUse id name) = none := by rw [webTool?, hname]; rfl
      have htrip := hothers _ List.mem_cons_self (by rw [isWebToolName, hname]; rfl)
      constructor
      · rw [webOutcome, hweb, Option.toList_some, List.flatMap_singleton, weaveBlock]
        simp only [AnthropicAssistantContentBlock.toolUse?]
        rw [htrip, shownOf, clientBlocks, clientStart, hweb]
        rfl
      · rw [webOutcome, hweb]
        simp [ours, ourToolUse?, AnthropicAssistantContentBlock.toolUse?, hname, executeAll]
    | some tool =>
      have hweb : webTool? (.toolUse id name) = some (id, tool) := by rw [webTool?, hname]; rfl
      obtain rfl := name_of_toolName? hname
      have hours (tu : AnthropicToolUseBlock) (htu : tu.name = some (.string tool.text)) :
          ours [.toolUse tu] = [(tu, tool)] := by
        simp [ours, ourToolUse?, AnthropicAssistantContentBlock.toolUse?, htu, hname]
      rw [Option.toList_some, hours _ rfl] at htrips ⊢
      have htrip := htrips _ List.mem_cons_self
      constructor
      · rw [webOutcome, hweb, List.flatMap_singleton, weaveBlock]
        simp only [AnthropicAssistantContentBlock.toolUse?]
        dsimp only at htrip
        rw [htrip, shownOf, clientBlocks, clientStart, hweb]
        rfl
      · rw [webOutcome, hweb]
        rfl

/-- What a turn shows and does, block by block. -/
theorem turn_agrees (trips : List RoundTrip) {blocks : List CarriedBlock}
    (harguments : ∀ b ∈ blocks, b.start.kind = .toolUse →
      parseToolInput platform b.text =
        parseToolCallArguments platform.parse (some (.string b.text)))
    (x : Execution)
    (htrips : ∀ o ∈ (executeAll platform executor
      (ours (blocks.filterMap (·.whole platform))) x).1,
      tripById trips o.1.id = some ⟨o.1.id, o.2⟩)
    (hothers : ∀ tu ∈ toolUses (blocks.filterMap (·.whole platform)),
      isWebToolName tu.name = false → tripById trips tu.id = none) :
    (blocks.filterMap (·.whole platform)).flatMap (weaveBlock platform trips) =
        (streamBlocks platform executor blocks x).1 ∧
      executeAll platform executor (ours (blocks.filterMap (·.whole platform))) x =
        (streamBlocks platform executor blocks x).2 := by
  induction blocks generalizing x with
  | nil => exact ⟨rfl, rfl⟩
  | cons b blocks ih =>
    have hcons : (b :: blocks).filterMap (·.whole platform) =
        (b.whole platform).toList ++ blocks.filterMap (·.whole platform) := by
      rw [List.filterMap_cons]
      cases b.whole platform <;> rfl
    have hours : ours ((b :: blocks).filterMap (·.whole platform)) =
        ours (b.whole platform).toList ++ ours (blocks.filterMap (·.whole platform)) := by
      rw [hcons]
      exact List.filterMap_append
    have huses : toolUses ((b :: blocks).filterMap (·.whole platform)) =
        toolUses (b.whole platform).toList ++ toolUses (blocks.filterMap (·.whole platform)) := by
      rw [hcons]
      exact List.filterMap_append
    rw [hours, executeAll_append] at htrips ⊢
    rw [huses] at hothers
    obtain ⟨hshown, hexecuted⟩ := block_agrees trips (harguments b List.mem_cons_self) x
      (fun o ho => htrips o (List.mem_append_left _ ho))
      (fun tu htu => hothers tu (List.mem_append_left _ htu))
    rw [hexecuted] at htrips ⊢
    obtain ⟨hrest, hrestExecuted⟩ := ih (fun b' hb' => harguments b' (List.mem_cons_of_mem _ hb'))
      (webOutcome platform executor b x).2 (fun o ho => htrips o (List.mem_append_right _ ho))
      (fun tu htu => hothers tu (List.mem_append_right _ htu))
    rw [hcons, List.flatMap_append, hshown, hrest, hrestExecuted]
    exact ⟨rfl, rfl⟩

theorem visible_append (content content' : List SynthesizedBlock) :
    visible (content ++ content') = visible content ++ visible content' :=
  List.filter_append _ _

theorem visible_weave (trips : List RoundTrip) (content : List AnthropicAssistantContentBlock) :
    visible (content.flatMap (weaveBlock platform trips)) =
      (content.filter (·.thinking?.isNone)).flatMap (weaveBlock platform trips) := by
  induction content with
  | nil => rfl
  | cons block content ih =>
    rw [List.flatMap_cons, visible_append, ih]
    cases block with
    | thinking block => rfl
    | text text => rfl
    | toolUse tu =>
      refine congrArg (· ++ _) ?_
      rw [weaveBlock]
      simp only [AnthropicAssistantContentBlock.toolUse?]
      cases tripById trips tu.id <;> rfl

theorem ours_filter (content : List AnthropicAssistantContentBlock) :
    ours (content.filter (·.thinking?.isNone)) = ours content := by
  rw [ours, ours, List.filterMap_filter]
  congr 1
  funext block
  cases block <;> rfl

theorem toolUses_filter (content : List AnthropicAssistantContentBlock) :
    toolUses (content.filter (·.thinking?.isNone)) = toolUses content := by
  rw [toolUses, toolUses, List.filterMap_filter]
  congr 1
  funext block
  cases block <;> rfl

/-- The turn of the agent loop for a response that a stream carries. -/
theorem agent_turn (executor : Executor) {answer : UpstreamAnswer} {resp : AnthropicResponse}
    {blocks : List CarriedBlock}
    (hcarries : Carries platform answer resp blocks) (halike : Alike platform resp blocks)
    (x : Execution) :
    visible (weaveTurn platform ⟨resp.content,
        (executeAll platform executor (ours resp.content) x).1.map fun o => ⟨o.1.id, o.2⟩⟩) =
      (streamBlocks platform executor blocks x).1 ∧
    executeAll platform executor (ours resp.content) x =
      (streamBlocks platform executor blocks x).2 := by
  have hours : ours (blocks.filterMap (·.whole platform)) = ours resp.content := by
    rw [← hcarries.content, ours_filter]
  have huses : toolUses (blocks.filterMap (·.whole platform)) = toolUses resp.content := by
    rw [← hcarries.content, toolUses_filter]
  have hids : ((executeAll platform executor (ours resp.content) x).1.map
      fun o => (⟨o.1.id, o.2⟩ : RoundTrip)).map (·.toolUseId) =
      (ours resp.content).map (·.1.id) := by
    have hfst := congrArg (List.map (·.id))
      (map_fst_executeAll platform executor (ours resp.content) x)
    rw [List.map_map, List.map_map] at hfst
    rw [List.map_map]
    exact hfst
  rw [weaveTurn_eq, visible_weave, hcarries.content, ← hours]
  refine turn_agrees _ halike.arguments x ?_ ?_
  · intro o ho
    rw [hours] at ho ⊢
    exact tripById_of_mem (hids ▸ halike.distinct) (List.mem_map_of_mem ho)
  · intro tu htu hname
    rw [huses] at htu
    rw [hours]
    exact tripById_eq_none (hids ▸ halike.others tu htu hname)

/-- The turn of the streaming agent for a stream that carries a response. -/
theorem stream_turn (executor : Executor) {answer : UpstreamAnswer} {resp : AnthropicResponse}
    {blocks : List CarriedBlock} (hcarries : Carries platform answer resp blocks)
    {shown : List SynthesizedBlock} {s : StreamState}
    (h : Reading platform shown s.next s.written) :
    ∃ frames failure u d, answer = .stream frames failure ∧
      readFrames platform executor failure frames .fresh (startTurn s) = (d, none) ∧
      Reading platform (shown ++ (streamBlocks platform executor blocks s.execution).1) d.next
        d.written ∧
      d.outcomes = (streamBlocks platform executor blocks s.execution).2.1 ∧
      d.execution = (streamBlocks platform executor blocks s.execution).2.2 ∧
      d.bufferedFinal = [.messageDelta resp.stopReason u, .messageStop] ∧
      (d.stopReason = .reason .toolUse ↔ resp.stopReason = .reason .toolUse) ∧
      IsCounted u ∧ resp.usage = wholeUsage u := by
  obtain ⟨frames, failure, id, model, usage, u, hanswer, hturn, hcounted, husage⟩ := hcarries.stream
  have hstart : ∃ d₀, dispatchEvent platform executor (.messageStart id model usage) (startTurn s) =
      .ok d₀ ∧ Reading platform shown d₀.next d₀.written ∧ d₀.execution = s.execution ∧
      d₀.outcomes = [] ∧ d₀.bufferedFinal = [] := by
    refine ⟨_, rfl, ?_⟩
    split
    · exact ⟨h, rfl, rfl, rfl⟩
    · have hread : readClient (s.written ++ [.forward (.messageStart id model usage)]) =
          readClient s.written := readClient_append ..
      refine ⟨⟨?_, ?_, ?_⟩, rfl, rfl, rfl⟩
      · exact (congrArg _ hread).trans h.shown_eq
      · exact fun c hc => h.below c (hread ▸ hc)
      · intro event hevent
        refine (List.mem_append.1 hevent).elim (h.quiet event) fun hevent => ?_
        obtain rfl := List.mem_singleton.1 hevent
        rfl
  obtain ⟨d₀, hd₀, hreading, hexecution, houtcomes, hbuffered⟩ := hstart
  obtain ⟨d₁, hd₁, hreading₁, houtcomes₁, hexecution₁, hbuffered₁, -, -⟩ :=
    dispatchAll_blocks executor hcarries.wellFormed 0 hreading
  rw [hexecution] at hreading₁ houtcomes₁ hexecution₁
  let d : Dispatch := { d₁ with
    bufferedFinal := d₁.bufferedFinal ++ [.messageDelta resp.stopReason u] ++ [.messageStop]
    stopReason := if resp.stopReason = .undefined then .null else resp.stopReason }
  have hall : dispatchAll platform executor (upstreamTurn platform failure frames .fresh).1
      (startTurn s) = (d, none) := by
    rw [hturn, dispatchAll, hd₀]
    exact dispatchAll_append hd₁
  refine ⟨frames, failure, u, d, hanswer, readFrames_of_dispatchAll hall (by rw [hturn]), hreading₁,
    ?_, hexecution₁, ?_, ?_, hcounted, husage⟩
  · rw [houtcomes] at houtcomes₁
    exact houtcomes₁
  · show d₁.bufferedFinal ++ [_] ++ [_] = _
    rw [hbuffered₁, hbuffered]
    rfl
  · show (if resp.stopReason = .undefined then StopReasonValue.null else resp.stopReason) = _ ↔ _
    split
    · next hundefined =>
      rw [hundefined]
      exact iff_of_false StopReasonValue.noConfusion StopReasonValue.noConfusion
    · rfl

/-! ## Usage -/

/-- The counts added up so far are numbers. -/
structure IsCountedTotal (total : UsageTotal) : Prop where
  inputTokens : isNumber (some total.inputTokens)
  outputTokens : isNumber (some total.outputTokens)
  cacheRead : total.cacheReadInputTokens = none ∨ isNumber total.cacheReadInputTokens

theorem exists_number {v : Val} (h : isNumber v) : ∃ n, v = some (.number n) := by
  rcases v with _ | j
  · cases h
  · cases j with
    | number n => exact ⟨n, rfl⟩
    | _ => cases h

theorem addIfReported_counted {total reported : Val} (htotal : total = none ∨ isNumber total)
    (hreported : reported = none ∨ isNumber reported) :
    ∃ sum, addIfReported total reported = .ok sum ∧ (sum = none ∨ isNumber sum) := by
  rcases hreported with rfl | hreported
  · exact ⟨total, rfl, htotal⟩
  · obtain ⟨n, rfl⟩ := exists_number hreported
    rcases htotal with rfl | htotal
    · exact ⟨_, rfl, .inr rfl⟩
    · obtain ⟨m, rfl⟩ := exists_number htotal
      exact ⟨_, rfl, .inr rfl⟩

/-- Both loops add the same counts to the same total. -/
theorem usage_agrees {total : UsageTotal} (htotal : IsCountedTotal total) {u : Usage}
    (hu : IsCounted u) {resp : AnthropicResponse} (husage : resp.usage = wholeUsage u)
    (hcost : resp.totalNanoAiu = none) (stopReason : StopReasonValue) :
    ∃ sum, IsCountedTotal sum ∧ accumulateTurnUsage total resp = .ok sum ∧
      accumulateUsage total [.messageDelta stopReason u, .messageStop] = .ok sum := by
  obtain ⟨input, output, cacheCreation, cacheRead, serviceTier, nano⟩ := total
  obtain ⟨hinput, houtput, hcache⟩ := htotal
  obtain ⟨uInput, uOutput, uCache⟩ := u
  obtain ⟨huOutput, huCache⟩ := hu
  obtain ⟨n, hn⟩ := exists_number hinput
  obtain ⟨m, hm⟩ := exists_number houtput
  obtain ⟨k, hk⟩ := exists_number huOutput
  obtain ⟨sum, hsum, hcounted⟩ := addIfReported_counted hcache huCache
  cases hn
  cases hm
  cases hk
  refine ⟨⟨.number (n.add uInput), .number (m.add k), cacheCreation, sum, serviceTier, nano⟩,
    ⟨rfl, rfl, hcounted⟩, ?_, ?_⟩
  · have hnone (v : Val) : addIfReported v none = .ok v := rfl
    rw [accumulateTurnUsage, husage, hcost]
    dsimp only at hsum
    simp only [wholeUsage, hnone, hsum]
    rfl
  · rw [accumulateUsage]
    dsimp only at hsum ⊢
    rw [hsum]
    rfl

/-! ## Runs -/

/-- The two loops before the same turn. -/
structure Matches (platform : Platform) (s : AgentState) (t : StreamState) : Prop where
  execution : s.execution = t.execution
  usage : s.usageTotal = t.usageTotal
  counted : IsCountedTotal s.usageTotal
  reading : Reading platform (visible (s.turns.flatMap (weaveTurn platform))) t.next t.written

/-- The runs make the same calls and deliver the same response. -/
def AgreesWith (platform : Platform) (a : AgentRun) (r : StreamRun) : Prop :=
  a.calls = r.calls ∧ a.sent.length = r.sent.length ∧ r.failure = none ∧
    ∃ response, a.result = .ok response ∧
      deliveredContent platform r.written = visible response.content ∧
      deliveredStopReason r.written = response.stopReason ∧
      deliveredUsage r.written = some response.usage

/-- The client reads the terminal events of the last turn. -/
theorem deliver_final {shown : List SynthesizedBlock} {next : ℕ} {written : List ClientEvent}
    (h : Reading platform shown next written) (stopReason : StopReasonValue) (u : Usage)
    (usageTotal : UsageTotal) :
    let final := written ++ finalEvents usageTotal [.messageDelta stopReason u, .messageStop]
    deliveredContent platform final = shown ∧ deliveredStopReason final = stopReason ∧
      deliveredUsage final = some usageTotal := by
  refine ⟨?_, ?_, ?_⟩
  · rw [deliveredContent, readClient_append]
    exact h.shown_eq
  · rw [deliveredStopReason, List.foldl_append]
    rfl
  · rw [deliveredUsage, List.foldl_append]
    rfl

/-- A turn that is not followed up calls no web tool, so there is nothing to follow up. -/
theorem followUp_of_last (executor : Executor) {resp : AnthropicResponse} {blocks : List CarriedBlock}
    (halike : Alike platform resp blocks) (hlast : continues resp = false) (s : AgentState)
    (usageTotal : UsageTotal) :
    (s.followUp platform executor resp.content usageTotal).turns =
        s.turns ++ [⟨resp.content, []⟩] ∧
      (s.followUp platform executor resp.content usageTotal).execution = s.execution := by
  have hours : ours resp.content = [] := by
    by_contra hsome
    rw [continues, halike.stops hsome, decide_eq_true rfl, Bool.and_true, Bool.not_eq_false',
      List.isEmpty_iff] at hlast
    exact hsome hlast
  rw [AgentState.followUp, hours]
  exact ⟨rfl, rfl⟩

/-- Both loops get through a turn in the same way, whether they go on after it or not. -/
theorem turn_matches (executor : Executor) {answer : UpstreamAnswer} {resp : AnthropicResponse}
    {blocks : List CarriedBlock} (hcarries : Carries platform answer resp blocks)
    (halike : Alike platform resp blocks) {s : AgentState} {t : StreamState}
    (h : Matches platform s t) :
    ∃ frames failure d sum, answer = .stream frames failure ∧
      readFrames platform executor failure frames .fresh (startTurn t) = (d, none) ∧
      accumulateTurnUsage s.usageTotal resp = .ok sum ∧
      accumulateUsage t.usageTotal d.bufferedFinal = .ok sum ∧
      d.continues = continues resp ∧
      Matches platform (s.followUp platform executor resp.content sum)
        (d.followUp platform t.messages sum) ∧
      AgreesWith platform
        ⟨[s.messages], (s.followUp platform executor resp.content sum).execution.calls,
          .ok (synthesizeFinalResponse platform resp
            (s.followUp platform executor resp.content sum).turns sum)⟩
        ⟨[t.messages], d.execution.calls, d.written ++ finalEvents sum d.bufferedFinal, none⟩ := by
  obtain ⟨hshown, hexecuted⟩ := agent_turn executor hcarries halike s.execution
  obtain ⟨frames, failure, u, d, hanswer, hread, hreading, houtcomes, hexecution, hbuffered, hreason,
    hcounted, husage⟩ := stream_turn executor hcarries h.reading
  obtain ⟨sum, hsum, hagent, hstream⟩ :=
    usage_agrees h.counted hcounted husage hcarries.noCost resp.stopReason
  rw [h.usage, ← hbuffered] at hstream
  rw [← h.execution, ← hshown] at hreading
  rw [← h.execution, ← hexecuted] at houtcomes hexecution
  have hcontinues : d.continues = continues resp := by
    have hlength := congrArg List.length
      (map_fst_executeAll platform executor (ours resp.content) s.execution)
    rw [List.length_map, List.length_map] at hlength
    have hempty : d.outcomes.isEmpty = (ours resp.content).isEmpty := by
      rw [Bool.eq_iff_iff, List.isEmpty_iff_length_eq_zero, List.isEmpty_iff_length_eq_zero,
        houtcomes, hlength]
    rw [Dispatch.continues, continues, hempty, Bool.and_comm, decide_eq_decide.2 hreason]
  have hturns : visible ((s.followUp platform executor resp.content sum).turns.flatMap
      (weaveTurn platform)) = visible (s.turns.flatMap (weaveTurn platform)) ++
        visible (weaveTurn platform ⟨resp.content, (executeAll platform executor
          (ours resp.content) s.execution).1.map fun o => ⟨o.1.id, o.2⟩⟩) := by
    rw [← visible_append]
    refine congrArg visible ?_
    show (s.turns ++ [_]).flatMap _ = _
    rw [List.flatMap_append, List.flatMap_singleton]
  rw [← hturns] at hreading
  obtain ⟨hcontent, hstop, hdelivered⟩ := deliver_final hreading resp.stopReason u sum
  rw [← hbuffered] at hcontent hstop hdelivered
  refine ⟨frames, failure, d, sum, hanswer, hread, hagent, hstream, hcontinues,
    ⟨hexecution.symm, rfl, hsum, hreading⟩, ?_⟩
  exact ⟨congrArg (·.calls) hexecution.symm, rfl, rfl, _, rfl, hcontent, hstop, hdelivered⟩

theorem loops_agree {callOnce : ℕ → Except Failure AnthropicResponse}
    {upstreamCall : ℕ → UpstreamAnswer} {responses : ℕ → AnthropicResponse}
    {blocks : ℕ → List CarriedBlock} (hresponses : ∀ i, callOnce i = .ok (responses i))
    (hcarries : ∀ i, Carries platform (upstreamCall i) (responses i) (blocks i))
    (halike : ∀ i, Alike platform (responses i) (blocks i)) (left : ℕ) {s : AgentState}
    {t : StreamState} (h : Matches platform s t) :
    AgreesWith platform (agentLoop platform executor callOnce left s)
      (streamLoop platform executor upstreamCall s.turns.length left t) := by
  induction left generalizing s t with
  | zero =>
    obtain ⟨frames, failure, d, sum, hanswer, hread, hagent, hstream, hcontinues, -, hagrees⟩ :=
      turn_matches executor (hcarries _) (halike _) h
    rw [agentLoop, streamLoop, hresponses, hanswer]
    simp only [hread, hagent, hstream, hcontinues]
    cases hc : continues (responses s.turns.length) with
    | true => exact hagrees
    | false =>
      obtain ⟨hturns, hsame⟩ := followUp_of_last executor (halike _) hc s sum
      rw [hturns, hsame] at hagrees
      exact hagrees
  | succ left ih =>
    obtain ⟨frames, failure, d, sum, hanswer, hread, hagent, hstream, hcontinues, hnext, hagrees⟩ :=
      turn_matches executor (hcarries _) (halike _) h
    rw [agentLoop, streamLoop, hresponses, hanswer]
    simp only [hread, hagent, hstream, hcontinues]
    cases hc : continues (responses s.turns.length) with
    | true =>
      obtain ⟨hcalls, hsent, hdone, hdelivers⟩ := ih hnext
      rw [AgentState.length_followUp] at hcalls hsent hdone hdelivers
      exact ⟨hcalls, congrArg (· + 1) hsent, hdone, hdelivers⟩
    | false =>
      obtain ⟨hturns, hsame⟩ := followUp_of_last executor (halike _) hc s sum
      rw [hturns, hsame] at hagrees
      exact hagrees

end

/-- Turns that are given as responses and as streams, and that both agents treat alike, lead both
agents to the same calls and the same response. -/
theorem agents_agree (platform : Platform) (executor : Executor)
    (messages : List AnthropicMessage) (declarations : List WebToolDecl)
    (responses : ℕ → AnthropicResponse) (upstreamCall : ℕ → UpstreamAnswer)
    (blocks : ℕ → List CarriedBlock)
    (hcarries : ∀ i, Carries platform (upstreamCall i) (responses i) (blocks i))
    (halike : ∀ i, Alike platform (responses i) (blocks i)) :
    AgreesWith platform
      (runAgentLoop platform executor (fun i => .ok (responses i)) messages declarations)
      (runStreamingAgent platform executor upstreamCall messages declarations) :=
  loops_agree (fun _ => rfl) hcarries halike (MAX_AGENT_TURNS - 1)
    ⟨rfl, rfl, ⟨rfl, rfl, .inl rfl⟩, rfl, by simp [readClient], by simp⟩

/-- A search and the chunks that can finish its turn, the arguments of the search, and a text. -/
def agreementChunks : List Json :=
  [chunkOf [("tool_calls", .array [toolCall 0 [("name", .string "web_search"),
      ("arguments", .string "abc")] [("id", .string "call_1")]])] .null,
    chunkOf [] (.string "tool_calls"),
    .object [("query", .string "lean")],
    chunkOf [("content", .string "done")] .null,
    chunkOf [] (.string "stop"),
    chunkOf [] (.string "length")]

def searchBlock : CarriedBlock :=
  ⟨.toolUse (some (.string "call_1")) (some (.string "web_search")),
    [.inputJsonDelta (some (.string "abc"))]⟩

def doneBlock : CarriedBlock := ⟨.text "", [.textDelta (some (.string "done"))]⟩

/-- The usage of chunks that do not report one. -/
def noUsage : Usage := ⟨Number.sub (.ofNat 0) (.ofNat 0), .number (.ofNat 0), none⟩

def respondCounted (content : List AnthropicAssistantContentBlock) (stopReason : StopReason) :
    AnthropicResponse :=
  ⟨none, none, content, .reason stopReason, wholeUsage noUsage, none⟩

/-- A search that is answered, and a text after it. -/
theorem agents_agree_search :
    AgreesWith (tablePlatform agreementChunks)
      (runAgentLoop (tablePlatform agreementChunks) idleExecutor
        (fun i => .ok (if i = 0 then respondCounted [callOf "call_1" "web_search"] .toolUse
          else respondCounted [.text (.string "done")] .endTurn)) [] [searchDecl])
      (runStreamingAgent (tablePlatform agreementChunks) idleExecutor
        (fun i => if i = 0 then .stream [some "a", some "ab"] none
          else .stream [some "abcd", some "abcde"] none) [] [searchDecl]) := by
  refine agents_agree _ _ _ _ _ _ (fun i => if i = 0 then [searchBlock] else [doneBlock])
    (fun i => ?_) (fun i => ?_)
  · by_cases hi : i = 0
    · rw [if_pos hi, if_pos hi, if_pos hi]
      exact ⟨⟨_, _, _, _, _, noUsage, rfl, rfl, ⟨rfl, .inl rfl⟩, rfl⟩, by decide, rfl, rfl⟩
    · rw [if_neg hi, if_neg hi, if_neg hi]
      exact ⟨⟨_, _, _, _, _, noUsage, rfl, rfl, ⟨rfl, .inl rfl⟩, rfl⟩, by decide, rfl, rfl⟩
  · by_cases hi : i = 0
    · rw [if_pos hi, if_pos hi]
      exact ⟨fun _ => rfl, by decide, by decide, by simp; exact fun _ => rfl⟩
    · rw [if_neg hi, if_neg hi]
      exact ⟨fun h => absurd rfl h, by decide, by decide, by simp [doneBlock, ContentBlock.kind]⟩

/-- A search in a turn that stops for its length is executed by the streaming agent only. -/
theorem not_all_agents_agree :
    ¬∀ (platform : Platform) (executor : Executor) (messages : List AnthropicMessage)
      (declarations : List WebToolDecl) (responses : ℕ → AnthropicResponse)
      (upstreamCall : ℕ → UpstreamAnswer) (blocks : ℕ → List CarriedBlock),
      (∀ i, Carries platform (upstreamCall i) (responses i) (blocks i)) →
      AgreesWith platform
        (runAgentLoop platform executor (fun i => .ok (responses i)) messages declarations)
        (runStreamingAgent platform executor upstreamCall messages declarations) := by
  intro h
  obtain ⟨hcalls, -⟩ := h (tablePlatform agreementChunks) idleExecutor [] [searchDecl]
    (fun _ => respondCounted [callOf "call_1" "web_search"] .maxTokens)
    (fun _ => .stream [some "a", some "abcdef"] none) (fun _ => [searchBlock])
    fun i => ⟨⟨_, _, _, _, _, noUsage, rfl, rfl, ⟨rfl, .inl rfl⟩, rfl⟩, by decide, rfl, rfl⟩
  revert hcalls
  decide

end Maximal.WebTools
