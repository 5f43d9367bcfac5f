import Maximal.Lib.Js.Number
import Mathlib.Data.Rat.Cast.Defs
import Mathlib.Algebra.Field.Rat

/-!
# Number literals

The text of a finite number is read as a decimal of the same value.

## Main definitions

- `Js.Number.ofLiteral` — the number of a literal that keeps to the grammar of `JSON.parse`
- `Js.Number.reread` — the decimal that the text of a finite number is read as

## Main results

- `Js.Number.ofLiteral_text`
- `Js.Number.reread_ofInt` — a whole number again
-/

namespace Js

namespace Number

def isLiteralChar (c : Char) : Bool :=
  c.isDigit || c = '-' || c = '+' || c = '.' || c = 'e' || c = 'E'

/-- No superfluous zero stands in front, and digits on both sides of the point. -/
def ofLiteral (cs : List Char) : Option Number :=
  let negative := cs.head? = some '-'
  let cs := if negative then cs.tail else cs
  let whole := cs.takeWhile Char.isDigit
  let rest := cs.dropWhile Char.isDigit
  if whole = [] ∨ (whole.head? = some '0' ∧ whole.length ≠ 1) ∨
      (rest.head? = some '.' ∧ rest.tail.takeWhile Char.isDigit = []) then none
  else (decimalOf cs).map fun (n, e) => .finite (if negative then -n else n) e

def signed (negative : Bool) (d : ℕ) : ℤ := if negative then -d else d

/-- The digits of the text as a whole number where the text has neither point nor exponent. -/
def reread (m e : ℤ) : Number :=
  let (d, z) := stripZeros m.natAbs.repr.length m.natAbs
  if d = 0 then .finite 0 0
  else if 0 ≤ e + z ∧ d.repr.toList.length + (e + z) ≤ 21 then
    .finite (signed (m < 0) (d * 10 ^ (e + z).toNat)) 0
  else .finite (signed (m < 0) d) (e + z)

/-! ## Digits -/

/-- Every character is a digit. -/
def Digits (cs : List Char) : Prop := ∀ c ∈ cs, c.isDigit = true

theorem Digits.append {cs ds : List Char} (hcs : Digits cs) (hds : Digits ds) :
    Digits (cs ++ ds) := by
  intro c hc
  obtain hc | hc := List.mem_append.1 hc
  · exact hcs c hc
  · exact hds c hc

theorem Digits.take {cs : List Char} (h : Digits cs) (n : ℕ) : Digits (cs.take n) :=
  fun c hc => h c (List.mem_of_mem_take hc)

theorem Digits.drop {cs : List Char} (h : Digits cs) (n : ℕ) : Digits (cs.drop n) :=
  fun c hc => h c (List.mem_of_mem_drop hc)

theorem digits_zeros (n : ℕ) : Digits (zeros n) := by
  intro c hc
  rw [List.eq_of_mem_replicate hc]
  decide

theorem digits_repr (n : ℕ) : Digits n.repr.toList := by
  intro c hc
  rw [Nat.toList_repr] at hc
  exact Nat.isDigit_of_mem_toDigits (by decide) (by decide) hc

theorem digitValue_of_isDigit {c : Char} (h : c.isDigit = true) :
    digitValue 10 c = some (c.toNat - '0'.toNat) := by
  have hc : '0' ≤ c ∧ c ≤ '9' := by
    simpa [Char.isDigit, Char.le_def] using h
  have hlt : c.toNat - '0'.toNat < 10 := by
    have hle : c.toNat ≤ '9'.toNat := hc.2
    have hnine : '9'.toNat = '0'.toNat + 9 := rfl
    omega
  rw [digitValue, if_pos hc]
  exact if_pos hlt

theorem naturalOf_digits {cs : List Char} (hne : cs ≠ []) (h : Digits cs) :
    naturalOf 10 cs = some (Nat.ofDigitChars 10 cs 0) := by
  have hfold : ∀ n, cs.foldlM (fun n c => (digitValue 10 c).map (10 * n + ·)) n =
      some (Nat.ofDigitChars 10 cs n) := by
    clear hne
    induction cs with
    | nil => intro n; rfl
    | cons c cs ih =>
      intro n
      rw [List.foldlM_cons, digitValue_of_isDigit (h c List.mem_cons_self), Nat.ofDigitChars_cons]
      exact ih (fun d hd => h d (List.mem_cons_of_mem c hd)) _
  rw [naturalOf, if_neg hne]
  exact hfold 0

theorem ofDigitChars_repr (n : ℕ) : Nat.ofDigitChars 10 n.repr.toList 0 = n := by
  rw [Nat.toList_repr, Nat.ofDigitChars_ten_toDigits]

theorem repr_ne_nil (n : ℕ) : n.repr.toList ≠ [] := by
  rw [Nat.toList_repr]
  exact Nat.toDigits_ne_nil

/-- The digits of a positive number do not begin with a zero. -/
theorem head_repr {n : ℕ} (h : n ≠ 0) : n.repr.toList.head? ≠ some '0' := by
  rw [Nat.toList_repr]
  induction n using Nat.strongRecOn with
  | ind n ih =>
    rw [Nat.toDigits_eq_if (by decide)]
    by_cases hn : n < 10
    · have hdigit : ∀ n < 10, n ≠ 0 → [n.digitChar].head? ≠ some '0' := by decide
      rw [if_pos hn]
      exact hdigit n hn h
    · rw [if_neg hn, List.head?_append_of_ne_nil _ Nat.toDigits_ne_nil]
      exact ih (n / 10) (by omega) (by omega)

/-! ## Literals -/

/-- The characters of a literal: sign, digits, fraction and what is left, the exponent. -/
def literal (negative : Bool) (whole fraction rest : List Char) : List Char :=
  (if negative then ['-'] else []) ++
    (whole ++ if fraction = [] then rest else '.' :: (fraction ++ rest))

theorem takeWhile_digits {whole : List Char} (hwhole : Digits whole) (rest : List Char)
    (hrest : ∀ c ∈ rest.head?, c.isDigit = false) :
    (whole ++ rest).takeWhile Char.isDigit = whole ∧
      (whole ++ rest).dropWhile Char.isDigit = rest := by
  rw [List.takeWhile_append_of_pos hwhole, List.dropWhile_append_of_pos hwhole]
  cases rest with
  | nil => exact ⟨List.append_nil whole, rfl⟩
  | cons c rest =>
    have hc : c.isDigit = false := hrest c rfl
    simp [hc]

section Literal

variable {whole fraction rest : List Char} {x : ℤ}

theorem decimalOf_literal (hwhole : Digits whole) (hfraction : Digits fraction)
    (hne : whole ≠ []) (hrest : ∀ c ∈ rest.head?, c = 'e') (hx : exponentOf rest = some x) :
    decimalOf (literal false whole fraction rest) =
      some (Nat.ofDigitChars 10 (whole ++ fraction) 0, x - fraction.length) := by
  have hhead : ∀ c ∈ rest.head?, c.isDigit = false := fun c hc => by
    rw [hrest c hc]
    decide
  have hnatural : naturalOf 10 (whole ++ fraction) =
      some (Nat.ofDigitChars 10 (whole ++ fraction) 0) :=
    naturalOf_digits (by simp [hne]) (hwhole.append hfraction)
  rw [literal, if_neg Bool.false_ne_true, List.nil_append, decimalOf]
  by_cases hpoint : fraction = []
  · have hsplit := takeWhile_digits hwhole rest hhead
    have hdot : rest.head? ≠ some '.' := fun h => absurd (hrest '.' h) (by decide)
    subst hpoint
    rw [List.append_nil] at hnatural
    simp only [if_true, hsplit.1, hsplit.2, if_neg hdot, List.append_nil, hnatural, hx]
  · have hsplit := takeWhile_digits hwhole ('.' :: (fraction ++ rest)) fun c hc => by
      rw [← Option.some.inj hc]
      decide
    have hsplit' := takeWhile_digits hfraction rest hhead
    simp only [if_neg hpoint, hsplit.1, hsplit.2, List.head?_cons, if_true, List.tail_cons,
      hsplit'.1, hsplit'.2, hnatural, hx]

theorem ofLiteral_literal (negative : Bool) (whole fraction rest : List Char)
    (hwhole : Digits whole) (hfraction : Digits fraction)
    (hne : whole ≠ []) (hzero : whole.head? = some '0' → whole.length = 1)
    (hrest : ∀ c ∈ rest.head?, c = 'e') (hx : exponentOf rest = some x) :
    ofLiteral (literal negative whole fraction rest) =
      some (.finite (signed negative (Nat.ofDigitChars 10 (whole ++ fraction) 0))
        (x - fraction.length)) := by
  have hdecimal := decimalOf_literal hwhole hfraction hne hrest hx
  have hsign : (literal negative whole fraction rest).head? = some '-' ↔ negative = true := by
    cases negative with
    | true => exact iff_of_true rfl rfl
    | false =>
      obtain ⟨c, cs, rfl⟩ := List.exists_cons_of_ne_nil hne
      refine iff_of_false (fun h => ?_) Bool.false_ne_true
      have hc : c = '-' := Option.some.inj h
      exact absurd (hwhole c List.mem_cons_self) (by rw [hc]; decide)
  have hbody : (if negative then (literal negative whole fraction rest).tail
      else literal negative whole fraction rest) = literal false whole fraction rest := by
    cases negative <;> rfl
  have hsplit : (literal false whole fraction rest).takeWhile Char.isDigit = whole ∧
      (literal false whole fraction rest).dropWhile Char.isDigit =
        if fraction = [] then rest else '.' :: (fraction ++ rest) := by
    refine takeWhile_digits hwhole _ fun c hc => ?_
    split_ifs at hc with h
    · rw [hrest c hc]
      decide
    · rw [← Option.some.inj hc]
      decide
  have hpoint : ¬((if fraction = [] then rest else '.' :: (fraction ++ rest)).head? = some '.' ∧
      (if fraction = [] then rest else '.' :: (fraction ++ rest)).tail.takeWhile Char.isDigit =
        []) := by
    rintro ⟨hhead, htail⟩
    by_cases h : fraction = []
    · rw [if_pos h] at hhead
      exact absurd (hrest '.' hhead) (by decide)
    · rw [if_neg h, List.tail_cons, (takeWhile_digits hfraction rest fun c hc => by
        rw [hrest c hc]
        decide).1] at htail
      exact h htail
  rw [ofLiteral]
  simp only [hsign, hbody, hsplit.1, hsplit.2, hdecimal]
  rw [if_neg (by
    rintro (h | h | h)
    · exact hne h
    · exact h.2 (hzero h.1)
    · exact hpoint h)]
  rfl

end Literal

/-! ## Texts -/

theorem stripZeros_eq (fuel m : ℕ) : (stripZeros fuel m).1 * 10 ^ (stripZeros fuel m).2 = m := by
  induction fuel generalizing m with
  | zero => simp [stripZeros]
  | succ fuel ih =>
    rw [stripZeros]
    split_ifs with h
    · have hm := ih (m / 10)
      dsimp only
      rw [pow_succ, ← mul_assoc, hm]
      omega
    · simp

theorem exponentOf_repr (n : ℤ) :
    exponentOf ('e' :: (if n < 0 then '-' else '+') :: n.natAbs.repr.toList) = some n := by
  have hnatural : naturalOf 10 n.natAbs.repr.toList = some n.natAbs := by
    rw [naturalOf_digits (repr_ne_nil _) (digits_repr _), ofDigitChars_repr]
  by_cases hn : n < 0
  · have hneg : (-(n.natAbs : ℤ)) = n := by omega
    rw [if_pos hn]
    simp only [exponentOf, true_or, if_true, hnatural]
    exact congrArg some hneg
  · have hpos : (n.natAbs : ℤ) = n := by omega
    rw [if_neg hn]
    simp only [exponentOf, true_or, if_true, hnatural]
    exact congrArg some hpos

section Place

variable {d : ℕ} {k : ℤ}

/-- The digits `d`, with the point `k` places after them, are read again. -/
theorem ofLiteral_place (negative : Bool) (hd : d ≠ 0) (k : ℤ) :
    ofLiteral ((if negative then ['-'] else []) ++
        place d.repr.toList (d.repr.toList.length + k)) =
      some (if 0 ≤ k ∧ d.repr.toList.length + k ≤ 21 then
          .finite (signed negative (d * 10 ^ k.toNat)) 0
        else .finite (signed negative d) k) := by
  have hds := digits_repr d
  have hne := repr_ne_nil d
  have hhead := head_repr hd
  have hvalue := ofDigitChars_repr d
  generalize d.repr.toList = ds at hds hne hhead hvalue ⊢
  have hpos : 0 < ds.length := List.length_pos_iff.2 hne
  have hzero : ds.head? = some '0' → ds.length = 1 := fun h => absurd h hhead
  have hnone : ∀ c ∈ ([] : List Char).head?, c = 'e' := fun c hc => absurd hc (by simp)
  rw [place]
  by_cases h1 : (ds.length : ℤ) ≤ ds.length + k ∧ ds.length + k ≤ 21
  · -- a whole number
    have hk : (ds.length + k - ds.length : ℤ).toNat = k.toNat := by omega
    have hcond : 0 ≤ k ∧ ds.length + k ≤ 21 := by omega
    have hread := ofLiteral_literal negative (ds ++ zeros k.toNat) [] []
      (hds.append (digits_zeros k.toNat)) (fun c hc => absurd hc List.not_mem_nil) (by simp [hne])
      (fun h => by
        rw [List.head?_append_of_ne_nil _ hne] at h
        exact absurd h hhead) hnone rfl
    have hdigits : Nat.ofDigitChars 10 (ds ++ zeros k.toNat) 0 = d * 10 ^ k.toNat := by
      rw [Nat.ofDigitChars_append, hvalue, zeros, Nat.ofDigitChars_replicate_zero, Nat.mul_comm]
    rw [if_pos h1, if_pos hcond, hk]
    rw [literal, if_pos rfl, List.append_nil, hdigits] at hread
    exact hread
  have hcond : ¬(0 ≤ k ∧ ds.length + k ≤ 21) := by omega
  rw [if_neg h1, if_neg hcond]
  by_cases h2 : 0 < (ds.length : ℤ) + k ∧ ds.length + k ≤ 21
  · -- the point stands among the digits
    generalize hn : ((ds.length : ℤ) + k).toNat = n
    have hfraction : ds.drop n ≠ [] := by
      rw [Ne, List.drop_eq_nil_iff]
      omega
    have htake : (ds.take n).head? = ds.head? := by
      rw [List.head?_take, if_neg (by omega)]
    have hread := ofLiteral_literal negative _ _ [] (hds.take n) (hds.drop n)
      (by
        rw [Ne, List.take_eq_nil_iff]
        exact fun h => h.elim (fun h => by omega) hne)
      (fun h => absurd (htake ▸ h) hhead) hnone rfl
    have hk : (0 : ℤ) - (ds.drop n).length = k := by
      rw [List.length_drop]
      omega
    rw [literal, if_neg hfraction, List.append_nil, List.take_append_drop, hvalue, hk] at hread
    rw [if_pos h2]
    exact hread
  rw [if_neg h2]
  by_cases h3 : -6 < (ds.length : ℤ) + k ∧ ds.length + k ≤ 0
  · -- zeros stand between the point and the digits
    generalize hn : (-((ds.length : ℤ) + k)).toNat = n
    have hread := ofLiteral_literal negative ['0'] _ [] (digits_zeros 1)
      ((digits_zeros n).append hds) (by simp) (fun _ => rfl) hnone rfl
    have hk : (0 : ℤ) - (zeros n ++ ds).length = k := by
      rw [List.length_append, zeros, List.length_replicate]
      omega
    have hdigits : Nat.ofDigitChars 10 (['0'] ++ (zeros n ++ ds)) 0 = d := by
      rw [Nat.ofDigitChars_append, Nat.ofDigitChars_append, zeros, Nat.ofDigitChars_replicate_zero]
      exact hvalue
    have hnil : zeros n ++ ds ≠ [] := by simp [hne]
    rw [literal, if_neg hnil, List.append_nil, hdigits, hk] at hread
    rw [if_pos h3]
    exact hread
  rw [if_neg h3]
  have hexponent := exponentOf_repr ((ds.length : ℤ) + k - 1)
  generalize hx : (if (ds.length : ℤ) + k - 1 < 0 then '-' else '+') ::
    ((ds.length : ℤ) + k - 1).natAbs.repr.toList = x at hexponent
  have hrest : ∀ c ∈ ('e' :: x).head?, c = 'e' := fun c hc => (Option.some.inj hc).symm
  by_cases h4 : ds.length = 1
  · have hread := ofLiteral_literal negative ds [] ('e' :: x) hds
      (fun c hc => absurd hc List.not_mem_nil) hne hzero hrest hexponent
    have hk : (ds.length : ℤ) + k - 1 - ([] : List Char).length = k := by
      rw [List.length_nil]
      omega
    rw [literal, if_pos rfl, List.append_nil, hvalue, hk] at hread
    simp only [if_pos h4]
    exact hread
  · have hfraction : ds.drop 1 ≠ [] := by
      rw [Ne, List.drop_eq_nil_iff]
      omega
    have hread := ofLiteral_literal negative _ _ ('e' :: x) (hds.take 1) (hds.drop 1)
      (by
        rw [Ne, List.take_eq_nil_iff]
        exact fun h => h.elim (fun h => by omega) hne)
      (fun _ => by
        rw [List.length_take]
        omega) hrest hexponent
    have hk : (ds.length : ℤ) + k - 1 - (ds.drop 1).length = k := by
      rw [List.length_drop]
      omega
    rw [literal, if_neg hfraction, List.take_append_drop, hvalue, hk] at hread
    simp only [if_neg h4, List.append_assoc, List.cons_append]
    exact hread

end Place

/-- The text of a finite number is read again. -/
theorem ofLiteral_text (m e : ℤ) :
    ofLiteral (Number.finite m e).text.toList = some (reread m e) := by
  rw [text, reread]
  dsimp only
  by_cases hd : (stripZeros m.natAbs.repr.length m.natAbs).1 = 0
  · rw [if_pos hd, if_pos hd]
    rfl
  · have hplace := ofLiteral_place (decide (m < 0)) hd
      (e + (stripZeros m.natAbs.repr.length m.natAbs).2)
    simp only [decide_eq_true_eq] at hplace
    rw [if_neg hd, if_neg hd, String.toList_ofList, add_assoc, hplace]

theorem isLiteralChar_of_isDigit {c : Char} (h : c.isDigit = true) : isLiteralChar c = true := by
  simp [isLiteralChar, h]

theorem isLiteralChar_place {ds : List Char} (hds : Digits ds) (n : ℤ) :
    ∀ c ∈ place ds n, isLiteralChar c = true := by
  intro c hc
  have hdigits : ∀ cs, Digits cs → c ∈ cs → isLiteralChar c = true := fun cs hcs h =>
    isLiteralChar_of_isDigit (hcs c h)
  have hpoint : ∀ cs cs', Digits cs → Digits cs' → c ∈ cs ++ '.' :: cs' →
      isLiteralChar c = true := fun cs cs' hcs hcs' h => by
    obtain h | h := List.mem_append.1 h
    · exact hdigits cs hcs h
    · obtain rfl | h := List.mem_cons.1 h
      · decide
      · exact hdigits cs' hcs' h
  have hexponent : c ∈ 'e' :: (if n - 1 < 0 then '-' else '+') :: (n - 1).natAbs.repr.toList →
      isLiteralChar c = true := fun h => by
    obtain rfl | h := List.mem_cons.1 h
    · decide
    · obtain rfl | h := List.mem_cons.1 h
      · split_ifs <;> decide
      · exact hdigits _ (digits_repr _) h
  rw [place] at hc
  by_cases h1 : ds.length ≤ n ∧ n ≤ 21
  · rw [if_pos h1] at hc
    exact hdigits _ (hds.append (digits_zeros _)) hc
  rw [if_neg h1] at hc
  by_cases h2 : 0 < n ∧ n ≤ 21
  · rw [if_pos h2] at hc
    exact hpoint _ _ (hds.take _) (hds.drop _) hc
  rw [if_neg h2] at hc
  by_cases h3 : -6 < n ∧ n ≤ 0
  · rw [if_pos h3] at hc
    exact hpoint ['0'] _ (digits_zeros 1) ((digits_zeros _).append hds) hc
  rw [if_neg h3] at hc
  obtain h | h := List.mem_append.1 hc
  · by_cases h4 : ds.length = 1
    · rw [if_pos h4] at h
      exact hdigits ds hds h
    · rw [if_neg h4] at h
      exact hpoint _ _ (hds.take 1) (hds.drop 1) h
  · exact hexponent h

theorem isLiteralChar_text (m e : ℤ) :
    ∀ c ∈ (Number.finite m e).text.toList, isLiteralChar c = true := by
  intro c hc
  rw [text] at hc
  dsimp only at hc
  split_ifs at hc with hd hm
  · obtain rfl : c = '0' := List.mem_singleton.1 hc
    decide
  · rw [String.toList_ofList, List.mem_append] at hc
    obtain h | h := hc
    · obtain rfl := List.mem_singleton.1 h
      decide
    · exact isLiteralChar_place (digits_repr _) _ c h
  · rw [String.toList_ofList] at hc
    exact isLiteralChar_place (digits_repr _) _ c hc

/-! ## Values -/

/-- The value of a decimal. -/
def value (m e : ℤ) : ℚ := m * 10 ^ e

theorem signed_stripZeros (m : ℤ) :
    signed (m < 0) (stripZeros m.natAbs.repr.length m.natAbs).1 *
      10 ^ (stripZeros m.natAbs.repr.length m.natAbs).2 = m := by
  have hstrip := congrArg (Nat.cast (R := ℤ)) (stripZeros_eq m.natAbs.repr.length m.natAbs)
  rw [Nat.cast_mul, Nat.cast_pow, Nat.cast_ofNat] at hstrip
  rw [signed]
  by_cases hm : m < 0
  · rw [if_pos (decide_eq_true hm), neg_mul, hstrip]
    omega
  · rw [if_neg (by simpa using hm), hstrip]
    omega

theorem value_mul_ten_pow (m e : ℤ) (z : ℕ) : value (m * 10 ^ z) e = value m (e + z) := by
  have hten : (10 : ℚ) ≠ 0 := by norm_num
  rw [value, value, zpow_add₀ hten, zpow_natCast, Int.cast_mul, Int.cast_pow, Int.cast_ofNat]
  ring

theorem value_signed (negative : Bool) (d z : ℕ) (e : ℤ) :
    value (signed negative d) (e + z) = value (signed negative d * 10 ^ z) e :=
  (value_mul_ten_pow _ e z).symm

theorem value_add (a b g : ℤ) : value (a + b) g = value a g + value b g := by
  rw [value, value, value, Int.cast_add, add_mul]

theorem value_rescale (m e f : ℤ) (h : f ≤ e) :
    value (m * 10 ^ (e - f).toNat) f = value m e := by
  have hz : ((e - f).toNat : ℤ) = e - f := Int.toNat_of_nonneg (by omega)
  rw [value_mul_ten_pow, hz, add_sub_cancel]

/-- The value of a sum is the sum of the values. -/
theorem add_finite (m e n f : ℤ) :
    ∃ k g, add (.finite m e) (.finite n f) = .finite k g ∧
      value k g = value m e + value n f := by
  refine ⟨_, _, rfl, ?_⟩
  rw [value_add, value_rescale m e _ (min_le_left e f), value_rescale n f _ (min_le_right e f)]

theorem sub_finite (m e n f : ℤ) :
    ∃ k g, sub (.finite m e) (.finite n f) = .finite k g ∧
      value k g = value m e - value n f := by
  have hneg (a g : ℤ) : value (-a) g = -value a g := by
    rw [value, value, Int.cast_neg, neg_mul]
  refine ⟨_, _, rfl, ?_⟩
  rw [sub_eq_add_neg, value_add, hneg, value_rescale m e _ (min_le_left e f),
    value_rescale n f _ (min_le_right e f), ← sub_eq_add_neg]

/-- A number is read with the value that it had. -/
theorem value_reread (m e : ℤ) :
    ∃ m' e', reread m e = .finite m' e' ∧ value m' e' = value m e := by
  have hm := signed_stripZeros m
  rw [reread]
  generalize stripZeros m.natAbs.repr.length m.natAbs = stripped at hm
  obtain ⟨d, z⟩ := stripped
  dsimp only at hm ⊢
  by_cases hd : d = 0
  · have hzero : m = 0 := by
      rw [← hm, hd, signed]
      split_ifs <;> simp
    exact ⟨0, 0, if_pos hd, by rw [hzero, value, value]; simp⟩
  rw [if_neg hd]
  by_cases hwhole : 0 ≤ e + z ∧ d.repr.toList.length + (e + z) ≤ 21
  · refine ⟨_, 0, if_pos hwhole, ?_⟩
    have hsigned : signed (m < 0) (d * 10 ^ (e + z).toNat) =
        signed (m < 0) d * 10 ^ (e + z).toNat := by
      rw [signed, signed]
      split_ifs <;> push_cast <;> ring
    have hk : ((e + z).toNat : ℤ) = e + z := Int.toNat_of_nonneg hwhole.1
    rw [hsigned, ← value_signed, zero_add, hk, value_signed, hm]
  · exact ⟨_, _, if_neg hwhole, by rw [value_signed, hm]⟩

/-- A whole number of at most 21 digits is read as it was. -/
theorem reread_ofInt {n : ℤ} (h : n.natAbs < 10 ^ 21) : reread n 0 = .ofInt n := by
  have hstrip := stripZeros_eq n.natAbs.repr.length n.natAbs
  rw [reread]
  generalize stripZeros n.natAbs.repr.length n.natAbs = stripped at hstrip
  obtain ⟨d, z⟩ := stripped
  dsimp only at hstrip ⊢
  by_cases hd : d = 0
  · have hzero : n = 0 := by
      rw [hd, Nat.zero_mul] at hstrip
      exact Int.natAbs_eq_zero.1 hstrip.symm
    rw [if_pos hd, hzero]
    rfl
  have hlength : d.repr.toList.length + z ≤ 21 := by
    have hz : z < 21 := (Nat.pow_lt_pow_iff_right (by decide)).1
      (lt_of_le_of_lt (Nat.le_mul_of_pos_left _ (Nat.pos_of_ne_zero hd)) (hstrip ▸ h))
    have hdigits : d.repr.length ≤ 21 - z := by
      rw [Nat.length_repr_le_iff (by omega)]
      refine Nat.lt_of_mul_lt_mul_right (a := 10 ^ z) ?_
      rw [hstrip, ← pow_add, Nat.sub_add_cancel hz.le]
      exact h
    rw [String.length_toList]
    omega
  have hvalue : signed (n < 0) (d * 10 ^ z) = n := by
    rw [hstrip, signed]
    by_cases hn : n < 0
    · rw [if_pos (decide_eq_true hn)]
      omega
    · rw [if_neg (by simpa using hn)]
      omega
  rw [if_neg hd, if_pos (by omega), ofInt]
  simpa using hvalue

end Number

end Js
