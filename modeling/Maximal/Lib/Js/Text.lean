import Mathlib.Data.List.Infix

/-!
# Texts of a JavaScript program

The operations of strings that programs use to take texts apart, on the list of characters.
Positions count characters; they agree with positions in code units wherever a program only
compares them with the ends or cuts there.

## Main definitions

- `Js.trim`, `Js.toLowerCase`, `Js.startsWith`, `Js.includes`
- `Js.indexOf`, `Js.lastIndexOf` — the position of a character, if it occurs
- `Js.slice` — from one position to another

## Main results

- `Js.trim_trim`, `Js.trim_of_forall`
- `Js.indexOf_separated`, `Js.lastIndexOf_separated` — where two texts were put together
- `Js.slice_left`, `Js.slice_right` — the two texts again
-/

namespace Js

/-- White space and line terminators, as `trim` and the reading of numbers strip them. -/
def isWhite (c : Char) : Bool :=
  c.toNat ∈ [0x09, 0x0A, 0x0B, 0x0C, 0x0D, 0x20, 0xA0, 0x1680, 0x2028, 0x2029, 0x202F, 0x205F,
    0x3000, 0xFEFF] || (0x2000 ≤ c.toNat && c.toNat ≤ 0x200A)

def trimChars (cs : List Char) : List Char :=
  ((cs.dropWhile isWhite).reverse.dropWhile isWhite).reverse

def trim (s : String) : String := String.ofList (trimChars s.toList)

/-- `s.toLowerCase()` of a text in ASCII; other characters are left alone. -/
def toLowerCase (s : String) : String := String.ofList (s.toList.map Char.toLower)

def startsWith (s p : String) : Bool := p.toList.isPrefixOf s.toList

def includes (s p : String) : Bool := s.toList.tails.any p.toList.isPrefixOf

def indexOf (s : String) (c : Char) : Option ℕ := s.toList.idxOf? c

def lastIndexOf (s : String) (c : Char) : Option ℕ :=
  (s.toList.reverse.idxOf? c).map fun i => s.toList.length - 1 - i

/-- `s.slice(start, stop)`. -/
def slice (s : String) (start : ℕ) (stop : ℕ := s.toList.length) : String :=
  String.ofList ((s.toList.take stop).drop start)

example : trim " \ta b\n" = "a b" := by decide
example : lastIndexOf "x@y@z" '@' = some 3 := by decide
example : slice "cm1#abc" 4 = "abc" := by decide

/-! ## Texts without white space around them -/

theorem dropWhile_of_head {p : Char → Bool} {cs : List Char} (h : ∀ c ∈ cs.head?, p c = false) :
    cs.dropWhile p = cs := by
  cases cs with
  | nil => rfl
  | cons c cs =>
    rw [List.dropWhile_cons_of_neg]
    rw [h c rfl]
    exact Bool.false_ne_true

theorem trimChars_of_ends {cs : List Char} (hhead : ∀ c ∈ cs.head?, isWhite c = false)
    (hlast : ∀ c ∈ cs.getLast?, isWhite c = false) : trimChars cs = cs := by
  have hreverse : ∀ c ∈ cs.reverse.head?, isWhite c = false := by
    rw [List.head?_reverse]
    exact hlast
  rw [trimChars, dropWhile_of_head hhead, dropWhile_of_head hreverse, List.reverse_reverse]

theorem head_dropWhile {p : Char → Bool} {cs : List Char} {c : Char}
    (h : c ∈ (cs.dropWhile p).head?) : p c = false := by
  induction cs with
  | nil => cases h
  | cons d cs ih =>
    rw [List.dropWhile_cons] at h
    split at h
    · exact ih h
    · next hd =>
      obtain rfl : d = c := Option.some.inj h
      exact Bool.eq_false_iff.2 hd

theorem isWhite_head_trimChars {cs : List Char} {c : Char} (h : c ∈ (trimChars cs).head?) :
    isWhite c = false := by
  obtain ⟨rest, hrest⟩ : ∃ rest, (trimChars cs) ++ rest = cs.dropWhile isWhite := by
    obtain ⟨white, hwhite⟩ := List.dropWhile_suffix isWhite (l := (cs.dropWhile isWhite).reverse)
    refine ⟨white.reverse, ?_⟩
    rw [trimChars, ← List.reverse_append, hwhite, List.reverse_reverse]
  have hhead : c ∈ (cs.dropWhile isWhite).head? := by
    rw [← hrest, List.head?_append, Option.mem_def.1 h]
    rfl
  exact head_dropWhile hhead

theorem isWhite_last_trimChars {cs : List Char} {c : Char} (h : c ∈ (trimChars cs).getLast?) :
    isWhite c = false := by
  rw [trimChars, List.getLast?_reverse] at h
  exact head_dropWhile h

theorem trimChars_trimChars (cs : List Char) : trimChars (trimChars cs) = trimChars cs :=
  trimChars_of_ends (fun _ => isWhite_head_trimChars) fun _ => isWhite_last_trimChars

theorem trim_trim (s : String) : trim (trim s) = trim s := by
  rw [trim, trim, String.toList_ofList, trimChars_trimChars]

theorem trim_of_forall {s : String} (h : ∀ c ∈ s.toList, isWhite c = false) : trim s = s := by
  rw [trim, trimChars_of_ends (fun c hc => h c (List.mem_of_mem_head? hc))
    (fun c hc => h c (List.mem_of_mem_getLast? hc)), String.ofList_toList]

/-! ## Texts with a separator -/

theorem startsWith_append (p s : String) : startsWith (p ++ s) p := by
  rw [startsWith, String.toList_append, List.isPrefixOf_iff_prefix]
  exact List.prefix_append _ _

theorem includes_append (s p t : String) : includes (s ++ (p ++ t)) p := by
  rw [includes, List.any_eq_true]
  refine ⟨p.toList ++ t.toList, ?_, ?_⟩
  · rw [List.mem_tails, String.toList_append, String.toList_append]
    exact List.suffix_append _ _
  · rw [List.isPrefixOf_iff_prefix]
    exact List.prefix_append _ _

/-- A text that is one character long occurs where the character does. -/
theorem includes_of_mem {s p : String} {c : Char} (hp : p.toList = [c]) (h : c ∈ s.toList) :
    includes s p := by
  obtain ⟨xs, ys, hs⟩ := List.append_of_mem h
  rw [includes, List.any_eq_true]
  refine ⟨c :: ys, ?_, ?_⟩
  · rw [List.mem_tails, hs]
    exact List.suffix_append xs (c :: ys)
  · rw [List.isPrefixOf_iff_prefix, hp]
    exact List.prefix_append [c] ys

theorem mem_of_indexOf {s : String} {c : Char} {i : ℕ} (h : indexOf s c = some i) :
    c ∈ s.toList := by
  by_contra hc
  rw [indexOf, List.idxOf?_eq_none_iff.2 hc] at h
  cases h

theorem mem_of_mem_slice {s : String} {start stop : ℕ} {c : Char}
    (h : c ∈ (slice s start stop).toList) : c ∈ s.toList := by
  rw [slice, String.toList_ofList] at h
  exact List.mem_of_mem_take (List.mem_of_mem_drop h)

theorem idxOf?_append_cons {c : Char} {xs : List Char} (h : c ∉ xs) (ys : List Char) :
    (xs ++ c :: ys).idxOf? c = some xs.length := by
  induction xs with
  | nil => simp [List.idxOf?_cons]
  | cons x xs ih =>
    obtain ⟨hne, hxs⟩ := not_or.1 (mt List.mem_cons.2 h)
    rw [List.cons_append, List.idxOf?_cons, if_neg (by simpa using Ne.symm hne), ih hxs]
    rfl

section Separated

variable {c : Char} {sep s t : String}

theorem toList_separated (hsep : sep.toList = [c]) (s t : String) :
    (s ++ (sep ++ t)).toList = s.toList ++ c :: t.toList := by
  rw [String.toList_append, String.toList_append, hsep, List.singleton_append]

/-- The first text does not contain the separator. -/
theorem indexOf_separated (hsep : sep.toList = [c]) (h : c ∉ s.toList) :
    indexOf (s ++ (sep ++ t)) c = some s.toList.length := by
  rw [indexOf, toList_separated hsep, idxOf?_append_cons h]

/-- The second text does not contain the separator. -/
theorem lastIndexOf_separated (hsep : sep.toList = [c]) (h : c ∉ t.toList) :
    lastIndexOf (s ++ (sep ++ t)) c = some s.toList.length := by
  have hreverse : (s.toList ++ c :: t.toList).reverse =
      t.toList.reverse ++ c :: s.toList.reverse := by
    simp
  rw [lastIndexOf, toList_separated hsep, hreverse,
    idxOf?_append_cons (by simpa using h), Option.map_some, List.length_append, List.length_cons,
    List.length_reverse]
  congr 1
  omega

theorem slice_left (s t : String) : slice (s ++ t) 0 s.toList.length = s := by
  rw [slice, String.toList_append, List.take_left, List.drop_zero, String.ofList_toList]

theorem slice_right (s t : String) : slice (s ++ t) s.toList.length = t := by
  rw [slice, List.take_length, String.toList_append, List.drop_left, String.ofList_toList]

/-- What comes after the separator. -/
theorem slice_separated (hsep : sep.toList = [c]) (s t : String) :
    slice (s ++ (sep ++ t)) (s.toList.length + 1) = t := by
  have hlength : (s ++ sep).toList.length = s.toList.length + 1 := by
    rw [String.toList_append, hsep, List.length_append, List.length_singleton]
  rw [← hlength, ← String.append_assoc, slice_right]

end Separated

end Js
