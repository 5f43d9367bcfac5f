import Maximal.Messages.ResponsesStreamTranslation

/-!
# The guard against runaway arguments

`updateWhitespaceRunState` counts line breaks and tabs with nothing but spaces between them, delta
by delta. It gives up on a text exactly when more than twenty stand in one row somewhere in it,
wherever the deltas were cut.

## Main definitions

- `RunsAway` — a row of blank characters has more than twenty line breaks and tabs

## Main results

- `updateWhitespaceRunState_append` — the guard does not depend on the cuts
- `updateWhitespaceRunState_eq_none_iff` — the guard gives up exactly on texts that run away
-/

namespace Maximal.Responses

open Js

def isBreak (c : Char) : Bool := c = '\r' || c = '\n' || c = '\t'

def isBlank (c : Char) : Bool := isBreak c || c = ' '

/-- The characters of a text, as `for (const char of text)` gives them. -/
def charsOf (cs : List Char) : List Json := cs.map fun c => .string (String.singleton c)

def RunsAway (cs : List Char) : Prop :=
  ∃ before row after, cs = before ++ row ++ after ∧ (∀ c ∈ row, isBlank c) ∧
    MAX_CONSECUTIVE_FUNCTION_CALL_WHITESPACE < row.countP isBreak

theorem charsOf_append (cs ds : List Char) : charsOf (cs ++ ds) = charsOf cs ++ charsOf ds :=
  List.map_append

/-- A text that runs away does so whatever follows. -/
theorem RunsAway.append {cs : List Char} (h : RunsAway cs) (ds : List Char) :
    RunsAway (cs ++ ds) := by
  obtain ⟨before, row, after, rfl, hrow, hcount⟩ := h
  exact ⟨before, row, after ++ ds, by rw [List.append_assoc], hrow, hcount⟩

theorem RunsAway.lt_length {cs : List Char} (h : RunsAway cs) :
    MAX_CONSECUTIVE_FUNCTION_CALL_WHITESPACE < cs.length := by
  obtain ⟨before, row, after, rfl, -, hcount⟩ := h
  have hrow : row.countP isBreak ≤ row.length := List.countP_le_length
  simp only [List.length_append]
  omega

theorem updateWhitespaceRunState_append (count : ℕ) (xs ys : List Json) :
    updateWhitespaceRunState count (xs ++ ys) =
      (updateWhitespaceRunState count xs).bind fun n => updateWhitespaceRunState n ys := by
  induction xs generalizing count with
  | nil => rfl
  | cons x xs ih =>
    simp only [List.cons_append, updateWhitespaceRunState]
    split
    · split
      · rfl
      · exact ih _
    · split
      · rfl
      · exact ih _
    · split
      · rfl
      · exact ih _
    · exact ih _
    · exact ih _

theorem singleton_eq_singleton {c d : Char} (h : String.singleton c = String.singleton d) :
    c = d := by
  have hlist := congrArg String.toList h
  simpa using hlist

/-- One character counts, passes, or ends the row. -/
theorem updateWhitespaceRunState_cons (count : ℕ) (c : Char) (cs : List Char) :
    updateWhitespaceRunState count (charsOf (c :: cs)) =
      if isBreak c then
        if MAX_CONSECUTIVE_FUNCTION_CALL_WHITESPACE < count + 1 then none
        else updateWhitespaceRunState (count + 1) (charsOf cs)
      else updateWhitespaceRunState (if c = ' ' then count else 0) (charsOf cs) := by
  by_cases hr : c = '\r'
  · subst hr
    rfl
  by_cases hn : c = '\n'
  · subst hn
    rfl
  by_cases ht : c = '\t'
  · subst ht
    rfl
  by_cases hs : c = ' '
  · subst hs
    rfl
  have hbreak : isBreak c = false := by simp [isBreak, hr, hn, ht]
  rw [hbreak, if_neg hs]
  simp only [charsOf, List.map_cons, updateWhitespaceRunState]
  split
  · next heq => exact absurd (singleton_eq_singleton (d := '\r') (Option.some.inj heq)) hr
  · next heq => exact absurd (singleton_eq_singleton (d := '\n') (Option.some.inj heq)) hn
  · next heq => exact absurd (singleton_eq_singleton (d := '\t') (Option.some.inj heq)) ht
  · next heq => exact absurd (singleton_eq_singleton (d := ' ') (Option.some.inj heq)) hs
  · rfl

/-- The row that `count` stands for goes on into `cs` and has too many breaks. -/
def RunsOn (count : ℕ) (cs : List Char) : Prop :=
  ∃ row after, cs = row ++ after ∧ (∀ c ∈ row, isBlank c) ∧
    MAX_CONSECUTIVE_FUNCTION_CALL_WHITESPACE < count + row.countP isBreak

theorem runsAway_cons (c : Char) (cs : List Char) :
    RunsAway (c :: cs) ↔ RunsOn 0 (c :: cs) ∨ RunsAway cs := by
  constructor
  · rintro ⟨before, row, after, heq, hrow, hcount⟩
    cases before with
    | nil => exact .inl ⟨row, after, heq, hrow, by omega⟩
    | cons d before =>
      obtain ⟨-, rfl⟩ := List.cons.inj heq
      exact .inr ⟨before, row, after, rfl, hrow, hcount⟩
  · rintro (⟨row, after, heq, hrow, hcount⟩ | ⟨before, row, after, rfl, hrow, hcount⟩)
    · exact ⟨[], row, after, heq, hrow, by omega⟩
    · exact ⟨c :: before, row, after, rfl, hrow, hcount⟩

theorem runsOn_cons {count : ℕ} (hle : count ≤ MAX_CONSECUTIVE_FUNCTION_CALL_WHITESPACE)
    (c : Char) (cs : List Char) :
    RunsOn count (c :: cs) ↔
      isBlank c ∧ RunsOn (count + if isBreak c then 1 else 0) cs := by
  constructor
  · rintro ⟨row, after, heq, hrow, hcount⟩
    cases row with
    | nil =>
      rw [List.countP_nil] at hcount
      omega
    | cons d row =>
      obtain ⟨rfl, rfl⟩ := List.cons.inj heq
      refine ⟨hrow c (List.mem_cons_self ..), row, after, rfl,
        fun d hd => hrow d (List.mem_cons_of_mem _ hd), ?_⟩
      rw [List.countP_cons] at hcount
      omega
  · rintro ⟨hc, row, after, rfl, hrow, hcount⟩
    refine ⟨c :: row, after, rfl, List.forall_mem_cons.2 ⟨hc, hrow⟩, ?_⟩
    rw [List.countP_cons]
    omega

/-- A row with fewer breaks before it has fewer breaks. -/
theorem RunsOn.mono {m n : ℕ} (hmn : m ≤ n) {cs : List Char} (h : RunsOn m cs) : RunsOn n cs := by
  obtain ⟨row, after, heq, hrow, hcount⟩ := h
  exact ⟨row, after, heq, hrow, by omega⟩

theorem updateWhitespaceRunState_eq_none {count : ℕ}
    (hle : count ≤ MAX_CONSECUTIVE_FUNCTION_CALL_WHITESPACE) (cs : List Char) :
    updateWhitespaceRunState count (charsOf cs) = none ↔ RunsOn count cs ∨ RunsAway cs := by
  induction cs generalizing count with
  | nil =>
    refine iff_of_false (by simp [charsOf, updateWhitespaceRunState]) ?_
    rintro (⟨row, after, heq, -, hcount⟩ | ⟨before, row, after, heq, -, hcount⟩)
    · obtain ⟨rfl, -⟩ := List.append_eq_nil_iff.1 heq.symm
      rw [List.countP_nil] at hcount
      omega
    · obtain ⟨hrow, -⟩ := List.append_eq_nil_iff.1 heq.symm
      obtain ⟨-, rfl⟩ := List.append_eq_nil_iff.1 hrow
      rw [List.countP_nil] at hcount
      omega
  | cons c cs ih =>
    rw [updateWhitespaceRunState_cons, runsAway_cons, runsOn_cons hle,
      runsOn_cons (Nat.zero_le _)]
    by_cases hbreak : isBreak c
    · have hblank : isBlank c := by simp [isBlank, hbreak]
      rw [if_pos hbreak, if_pos hbreak]
      simp only [hblank, true_and]
      split
      · next hlt => exact iff_of_true rfl (.inl ⟨[], cs, rfl, by simp, by simpa using hlt⟩)
      · next hge =>
        rw [ih (by omega)]
        have hmono : RunsOn (0 + 1) cs → RunsOn (count + 1) cs := RunsOn.mono (by omega)
        tauto
    · rw [if_neg hbreak, if_neg hbreak]
      by_cases hs : c = ' '
      · have hblank : isBlank c := by simp [isBlank, hs]
        rw [if_pos hs, ih hle]
        simp only [hblank, true_and, Nat.add_zero]
        have hmono : RunsOn 0 cs → RunsOn count cs := RunsOn.mono (Nat.zero_le _)
        tauto
      · have hblank : isBlank c = false := by simp [isBlank, hbreak, hs]
        rw [if_neg hs, ih (Nat.zero_le _)]
        simp only [hblank, Bool.false_eq_true, false_and, false_or]
        -- a row from the start of `cs` is a row in `cs`
        have hruns : RunsOn 0 cs → RunsAway cs := by
          rintro ⟨row, after, heq, hrow, hcount⟩
          exact ⟨[], row, after, heq, hrow, by omega⟩
        tauto

/-- From the start the guard gives up exactly on a text that runs away. -/
theorem updateWhitespaceRunState_eq_none_iff (cs : List Char) :
    updateWhitespaceRunState 0 (charsOf cs) = none ↔ RunsAway cs := by
  rw [updateWhitespaceRunState_eq_none (Nat.zero_le _)]
  refine or_iff_right_of_imp ?_
  rintro ⟨row, after, heq, hrow, hcount⟩
  exact ⟨[], row, after, heq, hrow, by omega⟩

end Maximal.Responses
