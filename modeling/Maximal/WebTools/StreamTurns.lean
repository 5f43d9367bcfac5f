import Maximal.WebTools.TurnEvents

/-!
# Web tools: the turns of a streamed request

## Main definitions

- `StreamTurn` — the events that a turn dispatches, and the state it ends in
- `streamTurns` — the turns of a run, those that break off included

## Main results

- `streamLoop_turns` — how a run ends, or goes on after its first turn
-/

namespace Maximal.WebTools

open Js

/-- A turn of the streaming agent: the events it dispatches, and the state it ends in. -/
structure StreamTurn where
  events : List AnthropicStreamEventData
  ends : Dispatch

/-- The turn for a stream. -/
def streamTurn (platform : Platform) (executor : Executor) (frames : List (Option String))
    (failure : Option Failure) (s : StreamState) : StreamTurn where
  events := dispatched platform executor (upstreamTurn platform failure frames .fresh).1 (startTurn s)
  ends := (readFrames platform executor failure frames .fresh (startTurn s)).1

/-- The turns from here on. -/
def streamTurns (platform : Platform) (executor : Executor) (upstreamCall : ℕ → UpstreamAnswer)
    (turn left : ℕ) (s : StreamState) : List StreamTurn :=
  match upstreamCall turn with
  | .rejected => []
  | .nonStreaming => []
  | .stream frames failure =>
    streamTurn platform executor frames failure s ::
      match readFrames platform executor failure frames .fresh (startTurn s) with
      | (_, some _) => []
      | (d, none) =>
        match accumulateUsage s.usageTotal d.bufferedFinal with
        | .error _ => []
        | .ok usageTotal =>
          if d.continues then
            match left with
            | 0 => []
            | left + 1 =>
              streamTurns platform executor upstreamCall (turn + 1) left
                (d.followUp platform s.messages usageTotal)
          else []

/-- The state in which the streaming agent starts. -/
def initialStream (messages : List AnthropicMessage) (declared : List WebToolDecl) : StreamState :=
  ⟨messages.map .given, 0, false, newUsageTotal, ⟨newRequestState declared, []⟩, []⟩

section

variable {platform : Platform} {executor : Executor}

/-- A run is not answered, breaks off in its first turn or after it, ends with the end of the
message, or goes on with the next turn. -/
theorem streamLoop_turns (platform : Platform) (executor : Executor)
    (upstreamCall : ℕ → UpstreamAnswer) (turn left : ℕ) (s : StreamState) :
    let run := streamLoop platform executor upstreamCall turn left s
    let turns := streamTurns platform executor upstreamCall turn left s
    run.written = s.written ∧ turns = [] ∧
        (run.failure = some .upstream ∨ run.failure = some .nonStreaming) ∨
      ∃ frames failure, upstreamCall turn = .stream frames failure ∧
        let t := streamTurn platform executor frames failure s
        let broken := (readFrames platform executor failure frames .fresh (startTurn s)).2
        run.written = t.ends.written ∧ turns = [t] ∧
            (broken ≠ none ∧ run.failure = broken ∨ ∃ e, run.failure = some (.type e)) ∨
          broken = none ∧ turns = [t] ∧ run.failure = none ∧
            (∃ usageTotal, accumulateUsage s.usageTotal t.ends.bufferedFinal = .ok usageTotal ∧
              run.sent = [s.messages] ∧
              run.written = t.ends.written ++ finalEvents usageTotal t.ends.bufferedFinal) ∨
          broken = none ∧ ∃ left' usageTotal, left = left' + 1 ∧
            accumulateUsage s.usageTotal t.ends.bufferedFinal = .ok usageTotal ∧
            let next := t.ends.followUp platform s.messages usageTotal
            let rest := streamLoop platform executor upstreamCall (turn + 1) left' next
            turns = t :: streamTurns platform executor upstreamCall (turn + 1) left' next ∧
            run.failure = rest.failure ∧ run.sent = s.messages :: rest.sent ∧
            run.written = rest.written := by
  intro run turns
  have hrun : run = streamLoop platform executor upstreamCall turn left s := rfl
  have hturns : turns = streamTurns platform executor upstreamCall turn left s := rfl
  rw [streamLoop.eq_def] at hrun
  rw [streamTurns.eq_def] at hturns
  cases hanswer : upstreamCall turn with
  | rejected =>
    rw [hanswer] at hrun hturns
    exact .inl ⟨congrArg StreamRun.written hrun, hturns, .inl (congrArg StreamRun.failure hrun)⟩
  | nonStreaming =>
    rw [hanswer] at hrun hturns
    exact .inl ⟨congrArg StreamRun.written hrun, hturns, .inr (congrArg StreamRun.failure hrun)⟩
  | stream frames failure =>
    refine .inr ⟨frames, failure, rfl, ?_⟩
    simp only [hanswer] at hrun hturns
    have hends : (streamTurn platform executor frames failure s).ends =
        (readFrames platform executor failure frames .fresh (startTurn s)).1 := rfl
    dsimp only
    rw [hends]
    cases hread : readFrames platform executor failure frames .fresh (startTurn s) with
    | mk d broken =>
      rw [hread] at hrun hturns
      cases broken with
      | some e =>
        rw [hrun, hturns]
        exact .inl ⟨rfl, rfl, .inl ⟨Option.some_ne_none e, rfl⟩⟩
      | none =>
        dsimp only at hrun hturns
        cases husage : accumulateUsage s.usageTotal d.bufferedFinal with
        | error e =>
          rw [husage] at hrun hturns
          rw [hrun, hturns]
          exact .inl ⟨rfl, rfl, .inr ⟨e, rfl⟩⟩
        | ok usageTotal =>
          simp only [husage] at hrun hturns
          cases hcontinues : d.continues with
          | false =>
            rw [hcontinues, if_neg Bool.false_ne_true] at hrun hturns
            rw [hrun, hturns]
            exact .inr (.inl ⟨rfl, rfl, rfl, usageTotal, rfl, rfl, rfl⟩)
          | true =>
            rw [hcontinues, if_pos rfl] at hrun hturns
            cases left with
            | zero =>
              rw [hrun, hturns]
              exact .inr (.inl ⟨rfl, rfl, rfl, usageTotal, rfl, rfl, rfl⟩)
            | succ left =>
              rw [hrun, hturns]
              exact .inr (.inr ⟨rfl, left, usageTotal, rfl, rfl, rfl, rfl, rfl, rfl⟩)

theorem streamTurn_written (platform : Platform) (executor : Executor)
    (frames : List (Option String)) (failure : Option Failure) (s : StreamState) :
    ∃ added, Written s.written (streamTurn platform executor frames failure s).events added
      (streamTurn platform executor frames failure s).ends := by
  have hstart : ∃ added, Written s.written [] added (startTurn s) :=
    ⟨[], (List.append_nil _).symm, rfl, by simp, rfl⟩
  have hall := dispatchAll_invariant (fun done e => done ++ [e])
    (fun done d => ∃ added, Written s.written done added d) (fun _ _ _ _ hw hd => Written.event hw hd)
    hstart (dispatchAll_turn platform executor failure frames .fresh
      (startTurn s))
  rwa [foldl_concat, List.nil_append] at hall

theorem exists_of_mem_streamTurns {upstreamCall : ℕ → UpstreamAnswer} {left turn : ℕ}
    {s : StreamState} {t : StreamTurn}
    (h : t ∈ streamTurns platform executor upstreamCall turn left s) :
    ∃ frames failure s', t = streamTurn platform executor frames failure s' := by
  induction left generalizing turn s with
  | zero =>
    rw [streamTurns.eq_def] at h
    split at h
    · cases h
    · cases h
    · next frames failure _ =>
      obtain rfl | h := List.mem_cons.1 h
      · exact ⟨frames, failure, s, rfl⟩
      · split at h
        · cases h
        · split at h
          · cases h
          · split at h <;> cases h
  | succ left ih =>
    rw [streamTurns.eq_def] at h
    split at h
    · cases h
    · cases h
    · next frames failure _ =>
      obtain rfl | h := List.mem_cons.1 h
      · exact ⟨frames, failure, s, rfl⟩
      · split at h
        · cases h
        · split at h
          · cases h
          · split at h
            · exact ih h
            · cases h

end

end Maximal.WebTools
