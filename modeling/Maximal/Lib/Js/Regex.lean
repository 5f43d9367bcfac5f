import Mathlib.Data.List.Basic
import Mathlib.Data.List.TakeWhile

/-!
# Regular expressions with groups

An expression is run by trying its alternatives in order and its repetitions from the longest on;
the first way to match the text from its start to its end gives the groups. Where a text can be
matched in one way only, the order does not matter.

## Main definitions

- `Js.Regex` — expressions over classes of characters
- `Js.Regex.run` — all ways to match the start of a text, in the order in which they are tried
- `Js.Regex.exec` — the groups of the first way to match a whole text
- `Js.Regex.removeAtEnd` — a text without the match that reaches its end
- `Js.Regex.Matches` — the texts of an expression, each with its groups

## Main results

- `Js.Regex.mem_run` — what is tried is what matches
- `Js.Regex.exec_eq_some_iff` — the groups of a text that is matched in one way
- `Js.Regex.removeAtEnd_append`, `Js.Regex.removeAtEnd_of_not_matches`
-/

namespace Js

inductive Regex where
  | text (cs : List Char)
  /-- `p*` for a class of characters. -/
  | star (p : Char → Bool)
  /-- `p+` for a class of characters. -/
  | plus (p : Char → Bool)
  /-- `p{n}` for a class of characters. -/
  | exactly (n : ℕ) (p : Char → Bool)
  | seq (a b : Regex)
  | alt (a b : Regex)
  /-- `a?`. -/
  | opt (a : Regex)
  /-- A group that is captured. -/
  | group (a : Regex)

namespace Regex

/-- What each group holds; `none` for a group that takes no part in the match. -/
abbrev Captures := List (Option (List Char))

/-- How many groups there are. -/
def groups : Regex → ℕ
  | text _ | star _ | plus _ | exactly _ _ => 0
  | seq a b | alt a b => a.groups + b.groups
  | opt a => a.groups
  | group a => a.groups + 1

/-- Groups that take no part. -/
def absent (r : Regex) : Captures := List.replicate r.groups none

/-- Groups, the text that is matched, and what is left of the text. -/
structure Attempt where
  captures : Captures
  matched : List Char
  rest : List Char

/-- The parts of lengths `lo` to `hi` of a text, the longest first. -/
def cuts (lo hi : ℕ) (s : List Char) : List Attempt :=
  ((List.range (hi + 1)).reverse.filter (lo ≤ ·)).map fun n => ⟨[], s.take n, s.drop n⟩

def run : Regex → List Char → List Attempt
  | text cs, s => if cs.isPrefixOf s then [⟨[], cs, s.drop cs.length⟩] else []
  | star p, s => cuts 0 (s.takeWhile p).length s
  | plus p, s => cuts 1 (s.takeWhile p).length s
  | exactly n p, s =>
    if n ≤ (s.takeWhile p).length then [⟨[], s.take n, s.drop n⟩] else []
  | seq a b, s =>
    (a.run s).flatMap fun x =>
      (b.run x.rest).map fun y => ⟨x.captures ++ y.captures, x.matched ++ y.matched, y.rest⟩
  | alt a b, s =>
    ((a.run s).map fun x => { x with captures := x.captures ++ b.absent }) ++
      (b.run s).map fun y => { y with captures := a.absent ++ y.captures }
  | opt a, s => (a.run s).filter (·.matched ≠ []) ++ [⟨a.absent, [], s⟩]
  | group a, s => (a.run s).map fun x => { x with captures := x.matched :: x.captures }

/-- `/^…$/.exec(s)` without the whole match. -/
def exec (r : Regex) (s : List Char) : Option Captures :=
  ((r.run s).find? (·.rest = [])).map (·.captures)

def test (r : Regex) (s : List Char) : Bool := (r.exec s).isSome

/-- `s.replace(/…$/, "")`. -/
def removeAtEnd (r : Regex) : List Char → List Char
  | [] => []
  | c :: s => if r.test (c :: s) then [] else c :: removeAtEnd r s

/-! ## Matches -/

def Matches : Regex → List Char → Captures → Prop
  | text cs, s, captures => s = cs ∧ captures = []
  | star p, s, captures => (∀ c ∈ s, p c) ∧ captures = []
  | plus p, s, captures => (s ≠ [] ∧ ∀ c ∈ s, p c) ∧ captures = []
  | exactly n p, s, captures => (s.length = n ∧ ∀ c ∈ s, p c) ∧ captures = []
  | seq a b, s, captures =>
    ∃ s₁ c₁ s₂ c₂, s = s₁ ++ s₂ ∧ captures = c₁ ++ c₂ ∧ a.Matches s₁ c₁ ∧ b.Matches s₂ c₂
  | alt a b, s, captures =>
    (∃ c₁, captures = c₁ ++ b.absent ∧ a.Matches s c₁) ∨
      ∃ c₂, captures = a.absent ++ c₂ ∧ b.Matches s c₂
  | opt a, s, captures => (s ≠ [] ∧ a.Matches s captures) ∨ s = [] ∧ captures = a.absent
  | group a, s, captures => ∃ c₁, captures = some s :: c₁ ∧ a.Matches s c₁

@[simp] theorem matches_text_seq {cs s : List Char} {b : Regex} {captures : Captures} :
    (seq (text cs) b).Matches s captures ↔ ∃ s₂, s = cs ++ s₂ ∧ b.Matches s₂ captures := by
  constructor
  · rintro ⟨_, _, s₂, c₂, rfl, rfl, ⟨rfl, rfl⟩, h⟩
    exact ⟨s₂, rfl, h⟩
  · rintro ⟨s₂, rfl, h⟩
    exact ⟨cs, [], s₂, captures, rfl, rfl, ⟨rfl, rfl⟩, h⟩

@[simp] theorem matches_seq_text {cs s : List Char} {a : Regex} {captures : Captures} :
    (seq a (text cs)).Matches s captures ↔ ∃ s₁, s = s₁ ++ cs ∧ a.Matches s₁ captures := by
  constructor
  · rintro ⟨s₁, c₁, _, _, rfl, rfl, h, rfl, rfl⟩
    exact ⟨s₁, rfl, by rwa [List.append_nil]⟩
  · rintro ⟨s₁, rfl, h⟩
    exact ⟨s₁, captures, cs, [], rfl, (List.append_nil _).symm, h, rfl, rfl⟩

/-- A group of one character or more of a class. -/
@[simp] theorem matches_group_plus {p : Char → Bool} {s : List Char} {captures : Captures} :
    (group (plus p)).Matches s captures ↔ (s ≠ [] ∧ ∀ c ∈ s, p c) ∧ captures = [some s] := by
  constructor
  · rintro ⟨_, rfl, hs, rfl⟩
    exact ⟨hs, rfl⟩
  · rintro ⟨hs, rfl⟩
    exact ⟨[], rfl, hs, rfl⟩

theorem le_length_takeWhile_iff (p : Char → Bool) (n : ℕ) (s : List Char) :
    n ≤ (s.takeWhile p).length ↔ n ≤ s.length ∧ ∀ c ∈ s.take n, p c := by
  induction s generalizing n with
  | nil => simp
  | cons c s ih =>
    cases n with
    | zero => simp
    | succ n =>
      by_cases hc : p c
      · simp [List.takeWhile_cons_of_pos hc, ih, hc]
      · simp [List.takeWhile_cons_of_neg hc, hc]

theorem mem_cuts {lo hi : ℕ} {s : List Char} (hhi : hi ≤ s.length) (x : Attempt) :
    x ∈ cuts lo hi s ↔
      s = x.matched ++ x.rest ∧ (lo ≤ x.matched.length ∧ x.matched.length ≤ hi) ∧
        x.captures = [] := by
  simp only [cuts, List.mem_map, List.mem_filter, List.mem_reverse, List.mem_range,
    decide_eq_true_eq]
  constructor
  · rintro ⟨n, ⟨hn, hlo⟩, rfl⟩
    have hlen : (s.take n).length = n := List.length_take_of_le (by omega)
    exact ⟨(List.take_append_drop n s).symm, ⟨hlen.symm ▸ hlo, hlen.symm ▸ Nat.le_of_lt_succ hn⟩,
      rfl⟩
  · rintro ⟨hs, ⟨hlo, hhi'⟩, hcaptures⟩
    refine ⟨x.matched.length, ⟨by omega, hlo⟩, ?_⟩
    obtain ⟨captures, matched, rest⟩ := x
    dsimp only at hs hcaptures ⊢
    rw [hs, hcaptures, List.take_left', List.drop_left'] <;> rfl

/-- A part at the start of a text is no longer than the run of the class there. -/
theorem length_le_takeWhile_iff (p : Char → Bool) (t rest : List Char) :
    t.length ≤ ((t ++ rest).takeWhile p).length ↔ ∀ c ∈ t, p c := by
  rw [le_length_takeWhile_iff, List.take_left]
  simp

theorem length_takeWhile_le (p : Char → Bool) (s : List Char) :
    (s.takeWhile p).length ≤ s.length :=
  (List.takeWhile_sublist p).length_le

/-- What is tried is what matches. -/
theorem mem_run (r : Regex) (s : List Char) (x : Attempt) :
    x ∈ r.run s ↔ s = x.matched ++ x.rest ∧ r.Matches x.matched x.captures := by
  induction r generalizing s x with
  | text cs =>
    obtain ⟨captures, matched, rest⟩ := x
    simp only [run, Matches]
    split
    · next htext =>
      obtain ⟨u, rfl⟩ := List.isPrefixOf_iff_prefix.mp htext
      rw [List.mem_singleton, List.drop_left, Attempt.mk.injEq]
      constructor
      · rintro ⟨rfl, rfl, rfl⟩
        exact ⟨rfl, rfl, rfl⟩
      · rintro ⟨hs, rfl, rfl⟩
        exact ⟨rfl, rfl, (List.append_cancel_left hs).symm⟩
    · next htext =>
      refine iff_of_false List.not_mem_nil ?_
      rintro ⟨rfl, rfl, -⟩
      exact htext (List.isPrefixOf_iff_prefix.mpr (List.prefix_append _ _))
  | star p =>
    rw [run, mem_cuts (length_takeWhile_le p s), Matches]
    refine and_congr_right fun hs => and_congr_left' ?_
    rw [hs, length_le_takeWhile_iff]
    simp
  | plus p =>
    rw [run, mem_cuts (length_takeWhile_le p s), Matches]
    refine and_congr_right fun hs => and_congr_left' ?_
    rw [hs, length_le_takeWhile_iff, Nat.one_le_iff_ne_zero, Ne, List.length_eq_zero_iff]
  | exactly n p =>
    obtain ⟨captures, matched, rest⟩ := x
    simp only [run, Matches]
    constructor
    · intro hx
      split at hx
      · next hn =>
        obtain ⟨hlen, hall⟩ := (le_length_takeWhile_iff p n s).mp hn
        obtain ⟨rfl, rfl, rfl⟩ := (Attempt.mk.injEq ..).mp (List.mem_singleton.mp hx)
        exact ⟨(List.take_append_drop n s).symm, ⟨List.length_take_of_le hlen, hall⟩, rfl⟩
      · cases hx
    · rintro ⟨rfl, ⟨rfl, hall⟩, rfl⟩
      rw [if_pos ((length_le_takeWhile_iff p matched rest).mpr hall), List.take_left,
        List.drop_left]
      exact List.mem_singleton_self _
  | seq a b iha ihb =>
    simp only [run, List.mem_flatMap, List.mem_map, iha, ihb, Matches]
    constructor
    · rintro ⟨y, ⟨hs, hy⟩, z, ⟨hrest, hz⟩, rfl⟩
      refine ⟨?_, y.matched, y.captures, z.matched, z.captures, rfl, rfl, hy, hz⟩
      rw [hs, hrest, List.append_assoc]
    · rintro ⟨hs, s₁, c₁, s₂, c₂, hmatched, hcaptures, h₁, h₂⟩
      obtain ⟨captures, matched, rest⟩ := x
      dsimp only at hs hmatched hcaptures
      subst hmatched hcaptures
      exact ⟨⟨c₁, s₁, s₂ ++ rest⟩, ⟨hs.trans (List.append_assoc ..), h₁⟩, ⟨c₂, s₂, rest⟩,
        ⟨rfl, h₂⟩, rfl⟩
  | alt a b iha ihb =>
    simp only [run, List.mem_append, List.mem_map, iha, ihb, Matches]
    constructor
    · rintro (⟨y, ⟨hs, hy⟩, rfl⟩ | ⟨y, ⟨hs, hy⟩, rfl⟩)
      · exact ⟨hs, .inl ⟨y.captures, rfl, hy⟩⟩
      · exact ⟨hs, .inr ⟨y.captures, rfl, hy⟩⟩
    · obtain ⟨captures, matched, rest⟩ := x
      rintro ⟨hs, ⟨c, rfl, hc⟩ | ⟨c, rfl, hc⟩⟩
      · exact .inl ⟨⟨c, matched, rest⟩, ⟨hs, hc⟩, rfl⟩
      · exact .inr ⟨⟨c, matched, rest⟩, ⟨hs, hc⟩, rfl⟩
  | opt a ih =>
    simp only [run, List.mem_append, List.mem_filter, List.mem_singleton, ih, Matches,
      decide_eq_true_eq]
    constructor
    · rintro (⟨⟨hs, hx⟩, hne⟩ | rfl)
      · exact ⟨hs, .inl ⟨hne, hx⟩⟩
      · exact ⟨rfl, .inr ⟨rfl, rfl⟩⟩
    · obtain ⟨captures, matched, rest⟩ := x
      rintro ⟨hs, ⟨hne, hx⟩ | ⟨rfl, rfl⟩⟩
      · exact .inl ⟨⟨hs, hx⟩, hne⟩
      · exact .inr (by rw [hs, List.nil_append])
  | group a ih =>
    simp only [run, List.mem_map, ih, Matches]
    constructor
    · rintro ⟨y, ⟨hs, hy⟩, rfl⟩
      exact ⟨hs, y.captures, rfl, hy⟩
    · obtain ⟨captures, matched, rest⟩ := x
      dsimp only
      rintro ⟨hs, c, rfl, hc⟩
      exact ⟨⟨c, matched, rest⟩, ⟨hs, hc⟩, rfl⟩

/-! ## Whole texts -/

theorem matches_of_exec {r : Regex} {s : List Char} {captures : Captures}
    (h : r.exec s = some captures) : r.Matches s captures := by
  obtain ⟨x, hfind, rfl⟩ := Option.map_eq_some_iff.mp h
  have hrest : x.rest = [] := by simpa using List.find?_some hfind
  obtain ⟨hs, hmatches⟩ := (mem_run r s x).mp (List.mem_of_find?_eq_some hfind)
  rwa [hs, hrest, List.append_nil]

theorem test_iff {r : Regex} {s : List Char} : r.test s ↔ ∃ captures, r.Matches s captures := by
  constructor
  · intro h
    obtain ⟨captures, hexec⟩ := Option.isSome_iff_exists.mp h
    exact ⟨captures, matches_of_exec hexec⟩
  · rintro ⟨captures, h⟩
    have hmem : ⟨captures, s, []⟩ ∈ r.run s := (mem_run r s _).mpr ⟨(List.append_nil s).symm, h⟩
    rw [test, exec, Option.isSome_map, List.find?_isSome]
    exact ⟨_, hmem, decide_eq_true rfl⟩

theorem exec_eq_none_iff {r : Regex} {s : List Char} :
    r.exec s = none ↔ ∀ captures, ¬r.Matches s captures := by
  rw [← Option.not_isSome_iff_eq_none, ← not_exists]
  exact not_congr test_iff

/-- The groups of a text that is matched in one way. -/
theorem exec_eq_some_iff {r : Regex} {s : List Char} {captures : Captures}
    (hunique : ∀ c c', r.Matches s c → r.Matches s c' → c = c') :
    r.exec s = some captures ↔ r.Matches s captures := by
  refine ⟨matches_of_exec, fun h => ?_⟩
  obtain ⟨captures', hexec⟩ := Option.isSome_iff_exists.mp (test_iff.mpr ⟨captures, h⟩)
  rw [hexec, hunique _ _ (matches_of_exec hexec) h]

theorem takeWhile_append_class {p : Char → Bool} {s t : List Char} (hs : ∀ c ∈ s, p c)
    (ht : ∀ c ∈ t.head?, p c = false) :
    (s ++ t).takeWhile p = s ∧ (s ++ t).dropWhile p = t := by
  rw [List.takeWhile_append_of_pos hs, List.dropWhile_append_of_pos hs]
  cases t with
  | nil => exact ⟨List.append_nil s, rfl⟩
  | cons c t => simp [ht c rfl]

/-- There is one way to cut a text where a class of characters ends. -/
theorem append_class_inj {p : Char → Bool} {s s' t t' : List Char} (hs : ∀ c ∈ s, p c)
    (hs' : ∀ c ∈ s', p c) (ht : ∀ c ∈ t.head?, p c = false) (ht' : ∀ c ∈ t'.head?, p c = false)
    (h : s ++ t = s' ++ t') : s = s' ∧ t = t' := by
  obtain ⟨htake, hdrop⟩ := takeWhile_append_class hs ht
  obtain ⟨htake', hdrop'⟩ := takeWhile_append_class hs' ht'
  rw [h] at htake hdrop
  exact ⟨htake.symm.trans htake', hdrop.symm.trans hdrop'⟩

theorem removeAtEnd_of_not_matches {r : Regex} {s : List Char}
    (h : ∀ t u captures, s = t ++ u → ¬r.Matches u captures) : r.removeAtEnd s = s := by
  induction s with
  | nil => rfl
  | cons c s ih =>
    have htest : r.test (c :: s) = false := by
      rw [Bool.eq_false_iff, Ne, test_iff]
      rintro ⟨captures, hmatches⟩
      exact h [] _ captures rfl hmatches
    rw [removeAtEnd, htest, if_neg Bool.false_ne_true,
      ih fun t u captures hs => h (c :: t) u captures (congrArg (c :: ·) hs)]

theorem removeAtEnd_sublist (r : Regex) (s : List Char) : (r.removeAtEnd s).Sublist s := by
  induction s with
  | nil => exact List.Sublist.refl []
  | cons c s ih =>
    rw [removeAtEnd]
    split
    · exact List.nil_sublist _
    · exact ih.cons_cons c

/-- Where all matches are of one length, the one at the end is removed. -/
theorem removeAtEnd_append {r : Regex} {s u : List Char} (hu : r.test u) (hne : u ≠ [])
    (hlength : ∀ v, r.test v → v.length = u.length) : r.removeAtEnd (s ++ u) = s := by
  induction s with
  | nil =>
    cases u with
    | nil => exact absurd rfl hne
    | cons c u => rw [List.nil_append, removeAtEnd, if_pos hu]
  | cons c s ih =>
    have htest : ¬r.test (c :: (s ++ u)) := by
      intro h
      have hlen := hlength _ h
      simp only [List.length_cons, List.length_append] at hlen
      omega
    rw [List.cons_append, removeAtEnd, if_neg htest, ih]

end Regex

end Js
