import Maximal.Models.IdRewrite

/-!
# Finding a model

An id of a client may spell family and version in several ways. It is brought into one form, and
the model is looked up under that.

## Main definitions

- `normalizeSdkModelId`, `findInModels`
- `VersionNumber`, `IsSpelling` — the ways to spell a model

## Main results

- `normalizeSdkModelId_of_isSpelling` — all spellings of a model become one
- `normalisation_identifies` — spellings are told apart, and the lookup finds what it should
-/

namespace Maximal.Models

open Js Regex

/-- `toLowerCase` of a character. Beyond ASCII only the Kelvin sign matters: what becomes of the
other characters is not in ASCII as a whole, and no pattern has such a text. -/
def lowerChar (c : Char) : Char := if c.toNat = 0x212A then 'k' else c.toLower

def lowerCase (cs : List Char) : List Char := cs.map lowerChar

/-- `\w`. -/
def isWordChar (c : Char) : Bool := c.isAlphanum || c = '_'

/-- `-\d{8}`. -/
def DATE_RE : Regex := .seq (.text ['-']) (.exactly 8 Char.isDigit)

/-- `claude-(p+)-(q+)`. -/
def twoParts (p q : Char → Bool) : Regex :=
  .seq (.text CLAUDE) <| .seq (.group (.plus p)) <| .seq (.text ['-']) (.group (.plus q))

/-- `claude-(p+)-(q+)` and, after a separator, `(r+)`. -/
def threeParts (p q : Char → Bool) (separator : Char) (r : Char → Bool) : Regex :=
  .seq (.text CLAUDE) <| .seq (.group (.plus p)) <| .seq (.text ['-']) <|
    .seq (.group (.plus q)) <| .seq (.text [separator]) (.group (.plus r))

/-- `claude-(\w+)-(\d+)-(\d+)`. -/
def PATTERN_1 : Regex := threeParts isWordChar Char.isDigit '-' Char.isDigit

/-- `claude-(\d+)-(\d+)-(\w+)`. -/
def PATTERN_2 : Regex := threeParts Char.isDigit Char.isDigit '-' isWordChar

/-- `claude-(\w+)-(\d+)\.(\d+)`. -/
def PATTERN_3 : Regex := threeParts isWordChar Char.isDigit '.' Char.isDigit

/-- `claude-(\w+)-(\d+)`. -/
def PATTERN_4 : Regex := twoParts isWordChar Char.isDigit

/-- `claude-(\d+)-(\w+)`. -/
def PATTERN_5 : Regex := twoParts Char.isDigit isWordChar

structure NormalizedId where
  family : List Char
  version : List Char
  deriving DecidableEq

/-- The patterns in their order, on an id in lower case without a date. -/
def matchPatterns (withoutDate : List Char) : Option NormalizedId :=
  match PATTERN_1.exec withoutDate with
  | some [some family, some major, some minor] => some ⟨family, major ++ '.' :: minor⟩
  | _ =>
    match PATTERN_2.exec withoutDate with
    | some [some major, some minor, some family] => some ⟨family, major ++ '.' :: minor⟩
    | _ =>
      match PATTERN_3.exec withoutDate with
      | some [some family, some major, some minor] => some ⟨family, major ++ '.' :: minor⟩
      | _ =>
        match PATTERN_4.exec withoutDate with
        | some [some family, some version] => some ⟨family, version⟩
        | _ =>
          match PATTERN_5.exec withoutDate with
          | some [some version, some family] => some ⟨family, version⟩
          | _ => none

def normalizeSdkModelId (sdkModelId : String) : Option NormalizedId :=
  matchPatterns (DATE_RE.removeAtEnd (lowerCase sdkModelId.toList))

structure Capabilities where
  family : String

structure Model where
  id : String
  version : String
  capabilities : Capabilities

/-- The first field of a model that has a normal form. -/
def normalizeModel (m : Model) : Option NormalizedId :=
  (normalizeSdkModelId m.version).or <|
    (normalizeSdkModelId m.capabilities.family).or (normalizeSdkModelId m.id)

/-- The name under which a model is looked up. -/
def nameOf (normalized : NormalizedId) : String :=
  String.ofList (CLAUDE ++ normalized.family ++ '-' :: normalized.version)

def findInModels (sdkModelId : String) (models : List Model) : Option Model :=
  match models.find? (·.id = sdkModelId) with
  | some exactMatch => some exactMatch
  | none =>
    match normalizeSdkModelId sdkModelId with
    | none => none
    | some normalized =>
      let modelName := nameOf normalized
      match models.find? fun m => m.id = modelName || m.version = modelName with
      | some byName => some byName
      | none => models.find? fun m => normalizeModel m = some normalized

/-! ## Parts of an id -/

section Parts

variable {p q r : Char → Bool} {separator : Char} {s a b c : List Char} {captures : Captures}

/-- One character or more of a class. -/
def IsRun (p : Char → Bool) (s : List Char) : Prop := s ≠ [] ∧ ∀ c ∈ s, p c

theorem isRun_of_all {p : Char → Bool} {s : List Char} (hs : s ≠ []) (h : s.all p = true) :
    IsRun p s := ⟨hs, List.all_eq_true.mp h⟩

theorem twoParts_matches_iff :
    (twoParts p q).Matches s captures ↔
      ∃ a b, IsRun p a ∧ IsRun q b ∧ s = CLAUDE ++ (a ++ '-' :: b) ∧
        captures = [some a, some b] := by
  rw [twoParts, matches_text_seq]
  constructor
  · rintro ⟨_, rfl, a, _, _, _, rfl, rfl, ha, hrest⟩
    obtain ⟨b, rfl, hb⟩ := matches_text_seq.mp hrest
    obtain ⟨ha', rfl⟩ := matches_group_plus.mp ha
    obtain ⟨hb', rfl⟩ := matches_group_plus.mp hb
    exact ⟨a, b, ha', hb', rfl, rfl⟩
  · rintro ⟨a, b, ha, hb, rfl, rfl⟩
    exact ⟨_, rfl, a, [some a], _, [some b], rfl, rfl, matches_group_plus.mpr ⟨ha, rfl⟩,
      matches_text_seq.mpr ⟨b, rfl, matches_group_plus.mpr ⟨hb, rfl⟩⟩⟩

theorem threeParts_matches_iff :
    (threeParts p q separator r).Matches s captures ↔
      ∃ a b c, IsRun p a ∧ IsRun q b ∧ IsRun r c ∧
        s = CLAUDE ++ (a ++ '-' :: (b ++ separator :: c)) ∧
        captures = [some a, some b, some c] := by
  rw [threeParts, matches_text_seq]
  constructor
  · rintro ⟨_, rfl, a, _, _, _, rfl, rfl, ha, hrest⟩
    obtain ⟨_, rfl, b, _, _, _, rfl, rfl, hb, hlast⟩ := matches_text_seq.mp hrest
    obtain ⟨c, rfl, hc⟩ := matches_text_seq.mp hlast
    obtain ⟨ha', rfl⟩ := matches_group_plus.mp ha
    obtain ⟨hb', rfl⟩ := matches_group_plus.mp hb
    obtain ⟨hc', rfl⟩ := matches_group_plus.mp hc
    exact ⟨a, b, c, ha', hb', hc', rfl, rfl⟩
  · rintro ⟨a, b, c, ha, hb, hc, rfl, rfl⟩
    refine ⟨_, rfl, a, [some a], _, [some b, some c], rfl, rfl, matches_group_plus.mpr ⟨ha, rfl⟩,
      matches_text_seq.mpr ⟨_, rfl, b, [some b], _, [some c], rfl, rfl,
        matches_group_plus.mpr ⟨hb, rfl⟩, ?_⟩⟩
    exact matches_text_seq.mpr ⟨c, rfl, matches_group_plus.mpr ⟨hc, rfl⟩⟩

theorem split_hyphen {a a' t t' : List Char} (ha : ∀ c ∈ a, c ≠ '-') (ha' : ∀ c ∈ a', c ≠ '-')
    (h : a ++ '-' :: t = a' ++ '-' :: t') : a = a' ∧ t = t' := by
  have hclass : ∀ {s : List Char}, (∀ c ∈ s, c ≠ '-') → ∀ c ∈ s, (c ≠ '-' : Bool) :=
    fun hs c hc => decide_eq_true (hs c hc)
  obtain ⟨hfirst, hrest⟩ := append_class_inj (hclass ha) (hclass ha') (by simp) (by simp) h
  exact ⟨hfirst, (List.cons.inj hrest).2⟩

/-- No character of the run is one outside its class. -/
theorem IsRun.ne {d : Char} (h : IsRun p s) (hd : p d = false) : ∀ c ∈ s, c ≠ d := by
  rintro c hc rfl
  rw [h.2 c hc] at hd
  cases hd

theorem IsRun.notMem {d : Char} (h : IsRun p s) (hd : p d = false) : d ∉ s :=
  fun hmem => h.ne hd d hmem rfl

theorem exec_twoParts (ha : IsRun p a) (hb : IsRun q b) (hp : p '-' = false) :
    (twoParts p q).exec (CLAUDE ++ (a ++ '-' :: b)) = some [some a, some b] := by
  refine (exec_eq_some_iff ?_).mpr (twoParts_matches_iff.mpr ⟨a, b, ha, hb, rfl, rfl⟩)
  have hunique : ∀ captures, (twoParts p q).Matches (CLAUDE ++ (a ++ '-' :: b)) captures →
      captures = [some a, some b] := by
    intro captures hmatches
    obtain ⟨a', b', ha', -, hs, rfl⟩ := twoParts_matches_iff.mp hmatches
    obtain ⟨rfl, rfl⟩ := split_hyphen (ha.ne hp) (ha'.ne hp) (List.append_cancel_left hs)
    rfl
  exact fun c c' hc hc' => (hunique c hc).trans (hunique c' hc').symm

theorem exec_threeParts (ha : IsRun p a) (hb : IsRun q b) (hc : IsRun r c) (hp : p '-' = false)
    (hq : q separator = false) :
    (threeParts p q separator r).exec (CLAUDE ++ (a ++ '-' :: (b ++ separator :: c))) =
      some [some a, some b, some c] := by
  refine (exec_eq_some_iff ?_).mpr (threeParts_matches_iff.mpr ⟨a, b, c, ha, hb, hc, rfl, rfl⟩)
  have hunique : ∀ captures, (threeParts p q separator r).Matches
      (CLAUDE ++ (a ++ '-' :: (b ++ separator :: c))) captures →
        captures = [some a, some b, some c] := by
    intro captures hmatches
    obtain ⟨a', b', c', ha', hb', -, hs, rfl⟩ := threeParts_matches_iff.mp hmatches
    obtain ⟨rfl, hrest⟩ := split_hyphen (ha.ne hp) (ha'.ne hp) (List.append_cancel_left hs)
    obtain ⟨rfl, hlast⟩ := append_class_inj hb.2 hb'.2 (by simpa using hq) (by simpa using hq) hrest
    obtain ⟨-, rfl⟩ := List.cons.inj hlast
    rfl
  exact fun d d' hd hd' => (hunique d hd).trans (hunique d' hd').symm

/-- Where the separator does not come after the first part, there are no three parts. -/
theorem exec_threeParts_eq_none {t : List Char} (ha : ∀ c ∈ a, c ≠ '-') (hp : p '-' = false)
    (ht : ∀ b c, IsRun q b → IsRun r c → t ≠ b ++ separator :: c) :
    (threeParts p q separator r).exec (CLAUDE ++ (a ++ '-' :: t)) = none := by
  rw [exec_eq_none_iff]
  intro captures hmatches
  obtain ⟨a', b, c, ha', hb, hc, hs, -⟩ := threeParts_matches_iff.mp hmatches
  obtain ⟨-, hrest⟩ := split_hyphen ha (ha'.ne hp) (List.append_cancel_left hs)
  exact ht b c hb hc hrest

theorem exec_twoParts_eq_none (ha : ∀ c ∈ a, c ≠ '-') (hp : p '-' = false) (hb : ¬IsRun q b) :
    (twoParts p q).exec (CLAUDE ++ (a ++ '-' :: b)) = none := by
  rw [exec_eq_none_iff]
  intro captures hmatches
  obtain ⟨a', b', ha', hb', hs, -⟩ := twoParts_matches_iff.mp hmatches
  obtain ⟨-, rfl⟩ := split_hyphen ha (ha'.ne hp) (List.append_cancel_left hs)
  exact hb hb'

end Parts

/-! ## The patterns -/

section Patterns

variable {f m n : List Char}

theorem isRun_word_of_alpha (h : IsRun Char.isAlpha f) : IsRun isWordChar f :=
  ⟨h.1, fun c hc => by simp [isWordChar, Char.isAlphanum, h.2 c hc]⟩

theorem isDigit_eq_false_of_isAlpha {c : Char} (h : c.isAlpha) : c.isDigit = false := by
  rw [Bool.eq_false_iff]
  intro hdigit
  have hle : c.toNat ≤ '9'.toNat := (Char.isDigit_iff_toNat.mp hdigit).2
  obtain hupper | hlower := Bool.or_eq_true_iff.mp h
  · have hge : 'A'.toNat ≤ c.toNat := (of_decide_eq_true hupper).1
    exact absurd (hge.trans hle) (by decide)
  · have hge : 'a'.toNat ≤ c.toNat := of_decide_eq_true (Bool.and_eq_true_iff.mp hlower).1
    exact absurd (hge.trans hle) (by decide)

/-- Letters are no number. -/
theorem not_isRun_digit_of_alpha (h : IsRun Char.isAlpha f) : ¬IsRun Char.isDigit f := by
  rintro ⟨-, hdigits⟩
  obtain ⟨c, cs, rfl⟩ := List.exists_cons_of_ne_nil h.1
  have hdigit := hdigits c List.mem_cons_self
  rw [isDigit_eq_false_of_isAlpha (h.2 c List.mem_cons_self)] at hdigit
  cases hdigit

theorem matchPatterns_familyFirst (hf : IsRun isWordChar f) (hm : IsRun Char.isDigit m)
    (hn : IsRun Char.isDigit n) :
    matchPatterns (CLAUDE ++ (f ++ '-' :: (m ++ '-' :: n))) = some ⟨f, m ++ '.' :: n⟩ := by
  rw [matchPatterns, PATTERN_1, exec_threeParts hf hm hn (by decide) (by decide)]

theorem matchPatterns_versionFirst (hf : IsRun Char.isAlpha f) (hm : IsRun Char.isDigit m)
    (hn : IsRun Char.isDigit n) :
    matchPatterns (CLAUDE ++ (m ++ '-' :: (n ++ '-' :: f))) = some ⟨f, m ++ '.' :: n⟩ := by
  -- the first pattern would take the family for a number
  have h₁ : PATTERN_1.exec (CLAUDE ++ (m ++ '-' :: (n ++ '-' :: f))) = none := by
    refine exec_threeParts_eq_none (hm.ne (by decide)) (by decide) fun b c hb hc hrest => ?_
    obtain ⟨-, rfl⟩ := split_hyphen (hn.ne (by decide)) (hb.ne (by decide)) hrest
    exact not_isRun_digit_of_alpha hf hc
  rw [matchPatterns, h₁, PATTERN_2,
    exec_threeParts hm hn (isRun_word_of_alpha hf) (by decide) (by decide)]

/-- The two patterns with hyphens alone need two of them after the first part. -/
theorem exec_pattern_eq_none {p q r : Char → Bool} {a t : List Char} (ha : ∀ c ∈ a, c ≠ '-')
    (hp : p '-' = false) (ht : '-' ∉ t) :
    (threeParts p q '-' r).exec (CLAUDE ++ (a ++ '-' :: t)) = none := by
  refine exec_threeParts_eq_none ha hp fun b c _ _ hrest => ht ?_
  rw [hrest]
  simp

theorem matchPatterns_dotted (hf : IsRun isWordChar f) (hm : IsRun Char.isDigit m)
    (hn : IsRun Char.isDigit n) :
    matchPatterns (CLAUDE ++ (f ++ '-' :: (m ++ '.' :: n))) = some ⟨f, m ++ '.' :: n⟩ := by
  have hyphen : '-' ∉ m ++ '.' :: n := by
    simp [hm.notMem (d := '-') (by decide), hn.notMem (d := '-') (by decide)]
  have h₁ : PATTERN_1.exec _ = none := exec_pattern_eq_none (hf.ne (by decide)) (by decide) hyphen
  have h₂ : PATTERN_2.exec _ = none := exec_pattern_eq_none (hf.ne (by decide)) (by decide) hyphen
  rw [matchPatterns, h₁, h₂, PATTERN_3, exec_threeParts hf hm hn (by decide) (by decide)]

/-- The patterns with three parts do not match two. -/
theorem matchPatterns_twoParts {a b : List Char} (ha : IsRun isWordChar a)
    (hb : IsRun isWordChar b) :
    matchPatterns (CLAUDE ++ (a ++ '-' :: b)) =
      match PATTERN_4.exec (CLAUDE ++ (a ++ '-' :: b)) with
      | some [some family, some version] => some ⟨family, version⟩
      | _ =>
        match PATTERN_5.exec (CLAUDE ++ (a ++ '-' :: b)) with
        | some [some version, some family] => some ⟨family, version⟩
        | _ => none := by
  have hyphen : '-' ∉ b := hb.notMem (by decide)
  have h₁ : PATTERN_1.exec _ = none := exec_pattern_eq_none (ha.ne (by decide)) (by decide) hyphen
  have h₂ : PATTERN_2.exec _ = none := exec_pattern_eq_none (ha.ne (by decide)) (by decide) hyphen
  have h₃ : PATTERN_3.exec (CLAUDE ++ (a ++ '-' :: b)) = none := by
    refine exec_threeParts_eq_none (ha.ne (by decide)) (by decide) fun c d _ _ hrest => ?_
    refine hb.notMem (d := '.') (by decide) ?_
    rw [hrest]
    simp
  rw [matchPatterns, h₁, h₂, h₃]

theorem isRun_word_of_digit (h : IsRun Char.isDigit m) : IsRun isWordChar m :=
  ⟨h.1, fun c hc => by simp [isWordChar, Char.isAlphanum, h.2 c hc]⟩

theorem matchPatterns_majorLast (hf : IsRun isWordChar f) (hm : IsRun Char.isDigit m) :
    matchPatterns (CLAUDE ++ (f ++ '-' :: m)) = some ⟨f, m⟩ := by
  rw [matchPatterns_twoParts hf (isRun_word_of_digit hm), PATTERN_4,
    exec_twoParts hf hm (by decide)]

theorem matchPatterns_majorFirst (hf : IsRun Char.isAlpha f) (hm : IsRun Char.isDigit m) :
    matchPatterns (CLAUDE ++ (m ++ '-' :: f)) = some ⟨f, m⟩ := by
  have h₄ : PATTERN_4.exec (CLAUDE ++ (m ++ '-' :: f)) = none :=
    exec_twoParts_eq_none (hm.ne (by decide)) (by decide) (not_isRun_digit_of_alpha hf)
  rw [matchPatterns_twoParts (isRun_word_of_digit hm) (isRun_word_of_alpha hf), h₄, PATTERN_5,
    exec_twoParts hm (isRun_word_of_alpha hf) (by decide)]

end Patterns

/-! ## Lower case -/

theorem isUpper_iff (c : Char) : c.isUpper ↔ 65 ≤ c.toNat ∧ c.toNat ≤ 90 := decide_eq_true_iff

theorem isLower_iff (c : Char) : c.isLower ↔ 97 ≤ c.toNat ∧ c.toNat ≤ 122 := by
  have hbounds : c.isLower ↔ 'a'.val ≤ c.val ∧ c.val ≤ 'z'.val :=
    Bool.and_eq_true_iff.trans (and_congr decide_eq_true_iff decide_eq_true_iff)
  exact hbounds

theorem toLower_of_not_upper {c : Char} (h : ¬c.isUpper) : c.toLower = c :=
  dif_neg fun hc => h (decide_eq_true hc)

theorem toNat_toLower_of_upper {c : Char} (h : c.isUpper) : c.toLower.toNat = c.toNat + 32 := by
  have hrange := (isUpper_iff c).mp h
  have hval : c.toLower.val = c.val + 32 := congrArg Char.val (dif_pos (of_decide_eq_true h))
  show c.toLower.val.toNat = c.toNat + 32
  rw [hval, UInt32.toNat_add]
  exact Nat.mod_eq_of_lt (lt_of_le_of_lt (Nat.add_le_add_right hrange.2 _) (by decide))

theorem lowerChar_eq_self {c : Char} (hkelvin : c.toNat ≠ 0x212A) (hupper : ¬c.isUpper) :
    lowerChar c = c := by
  rw [lowerChar, if_neg hkelvin, toLower_of_not_upper hupper]

theorem lowerChar_of_digit {c : Char} (h : c.isDigit) : lowerChar c = c := by
  have hrange : 48 ≤ c.toNat ∧ c.toNat ≤ 57 := Char.isDigit_iff_toNat.mp h
  refine lowerChar_eq_self (by omega) fun hupper => ?_
  have := (isUpper_iff c).mp hupper
  omega

theorem lowerChar_of_alpha {c : Char} (h : c.isAlpha) : (lowerChar c).isAlpha := by
  unfold lowerChar
  split
  · rfl
  · by_cases hupper : c.isUpper
    · have hrange := (isUpper_iff c).mp hupper
      have hlower := toNat_toLower_of_upper hupper
      exact Bool.or_eq_true_iff.mpr (.inr ((isLower_iff _).mpr ⟨by omega, by omega⟩))
    · rwa [toLower_of_not_upper hupper]

/-- What is in lower case stays as it is. -/
theorem lowerChar_lowerChar (c : Char) : lowerChar (lowerChar c) = lowerChar c := by
  by_cases hkelvin : c.toNat = 0x212A
  · have hk : lowerChar c = 'k' := if_pos hkelvin
    rw [hk]
    decide
  · have hlower : lowerChar c = c.toLower := if_neg hkelvin
    by_cases hupper : c.isUpper
    · have hrange := (isUpper_iff c).mp hupper
      have hnat := toNat_toLower_of_upper hupper
      rw [hlower]
      refine lowerChar_eq_self (by omega) fun hagain => ?_
      have := (isUpper_iff _).mp hagain
      omega
    · rw [hlower, toLower_of_not_upper hupper, lowerChar_eq_self hkelvin hupper]

theorem lowerCase_eq_self {cs : List Char} (h : ∀ c ∈ cs, lowerChar c = c) : lowerCase cs = cs := by
  rw [lowerCase, List.map_congr_left h, List.map_id']

/-! ## Dates -/

def IsDate (d : List Char) : Prop := d.length = 8 ∧ ∀ c ∈ d, c.isDigit

theorem date_test_iff (u : List Char) : DATE_RE.test u ↔ ∃ d, u = '-' :: d ∧ IsDate d := by
  rw [test_iff]
  constructor
  · rintro ⟨captures, hmatches⟩
    obtain ⟨d, rfl, hd, -⟩ := matches_text_seq.mp hmatches
    exact ⟨d, rfl, hd⟩
  · rintro ⟨d, rfl, hd⟩
    exact ⟨[], matches_text_seq.mpr ⟨d, rfl, hd, rfl⟩⟩

theorem removeDate_append {s d : List Char} (hd : IsDate d) :
    DATE_RE.removeAtEnd (s ++ '-' :: d) = s := by
  refine removeAtEnd_append ((date_test_iff _).mpr ⟨d, rfl, hd⟩) (List.cons_ne_nil _ _) ?_
  intro v hv
  obtain ⟨d', rfl, hd'⟩ := (date_test_iff v).mp hv
  rw [List.length_cons, List.length_cons, hd.1, hd'.1]

theorem ne_hyphen_of_isDate {d : List Char} (hd : IsDate d) : ∀ c ∈ d, c ≠ '-' := by
  rintro c hc rfl
  exact absurd (hd.2 _ hc) (by decide)

/-- The last part of an id is its date, if it is one. -/
theorem removeDate_undated {s w : List Char} (a : List Char) (hs : s = a ++ '-' :: w)
    (hw : ∀ c ∈ w, c ≠ '-') (hdate : ¬IsDate w) : DATE_RE.removeAtEnd s = s := by
  subst hs
  refine removeAtEnd_of_not_matches fun t u captures hs hmatches => hdate ?_
  obtain ⟨d, rfl, hd⟩ := (date_test_iff u).mp (test_iff.mpr ⟨captures, hmatches⟩)
  -- read from the end, both stop at the last hyphen
  have hreverse : w.reverse ++ '-' :: a.reverse = d.reverse ++ '-' :: t.reverse := by
    simpa using congrArg List.reverse hs
  obtain ⟨hlast, -⟩ := split_hyphen (by simpa using hw) (by simpa using ne_hyphen_of_isDate hd)
    hreverse
  rwa [List.reverse_injective hlast]

/-! ## Spellings -/

/-- A number of fewer than eight digits. -/
structure VersionPart where
  digits : List Char
  isRun : IsRun Char.isDigit digits
  short : digits.length < 8

inductive VersionNumber where
  | major (m : VersionPart)
  | minor (m n : VersionPart)

def VersionNumber.text : VersionNumber → List Char
  | major m => m.digits
  | minor m n => m.digits ++ '.' :: n.digits

/-- A name of letters. -/
structure FamilyName where
  letters : List Char
  isRun : IsRun Char.isAlpha letters

/-- The name in lower case. -/
def FamilyName.lower (family : FamilyName) : List Char := lowerCase family.letters

/-- The ways to spell a family and a version, without a date. -/
inductive Spells (family : List Char) : VersionNumber → List Char → Prop
  | familyFirst (m n : VersionPart) :
    Spells family (.minor m n) (CLAUDE ++ (family ++ '-' :: (m.digits ++ '-' :: n.digits)))
  | versionFirst (m n : VersionPart) :
    Spells family (.minor m n) (CLAUDE ++ (m.digits ++ '-' :: (n.digits ++ '-' :: family)))
  | dotted (m n : VersionPart) :
    Spells family (.minor m n) (CLAUDE ++ (family ++ '-' :: (m.digits ++ '.' :: n.digits)))
  | majorLast (m : VersionPart) : Spells family (.major m) (CLAUDE ++ (family ++ '-' :: m.digits))
  | majorFirst (m : VersionPart) : Spells family (.major m) (CLAUDE ++ (m.digits ++ '-' :: family))

/-- In any case of letters, and with or without a date. -/
def IsSpelling (family : FamilyName) (version : VersionNumber) (id : String) : Prop :=
  ∃ s, Spells family.lower version s ∧
    (lowerCase id.toList = s ∨ ∃ d, IsDate d ∧ lowerCase id.toList = s ++ '-' :: d)

theorem FamilyName.isRun_lower (family : FamilyName) : IsRun Char.isAlpha family.lower := by
  refine ⟨by simpa [lower, lowerCase] using family.isRun.1, fun c hc => ?_⟩
  obtain ⟨d, hd, rfl⟩ := List.mem_map.mp hc
  exact lowerChar_of_alpha (family.isRun.2 d hd)

theorem matchPatterns_of_spells {family : List Char} {version : VersionNumber} {s : List Char}
    (h : Spells family version s) (hfamily : IsRun Char.isAlpha family) :
    matchPatterns s = some ⟨family, version.text⟩ := by
  have hword := isRun_word_of_alpha hfamily
  cases h with
  | familyFirst m n => exact matchPatterns_familyFirst hword m.isRun n.isRun
  | versionFirst m n => exact matchPatterns_versionFirst hfamily m.isRun n.isRun
  | dotted m n => exact matchPatterns_dotted hword m.isRun n.isRun
  | majorLast m => exact matchPatterns_majorLast hword m.isRun
  | majorFirst m => exact matchPatterns_majorFirst hfamily m.isRun

theorem VersionPart.not_isDate (m : VersionPart) : ¬IsDate m.digits := fun h => by
  have := m.short
  have := h.1
  omega

/-- A version with a point is no date. -/
theorem dotted_not_isDate (m n : List Char) : ¬IsDate (m ++ '.' :: n) := fun h =>
  absurd (h.2 '.' (by simp)) (by decide)

theorem ne_hyphen_dotted {m n : List Char} (hm : IsRun Char.isDigit m) (hn : IsRun Char.isDigit n) :
    ∀ c ∈ m ++ '.' :: n, c ≠ '-' := by
  intro c hc
  obtain hc | hc | hc := by simpa using hc
  · exact hm.ne (by decide) c hc
  · rw [hc]
    decide
  · exact hn.ne (by decide) c hc

/-- No spelling ends in what looks like a date. -/
theorem removeDate_of_spells {family : List Char} {version : VersionNumber} {s : List Char}
    (h : Spells family version s) (hfamily : IsRun Char.isAlpha family) :
    DATE_RE.removeAtEnd s = s := by
  have hdigits : ∀ m : VersionPart, ∀ c ∈ m.digits, c ≠ '-' := fun m => m.isRun.ne (by decide)
  have hletters : ∀ c ∈ family, c ≠ '-' := hfamily.ne (by decide)
  have hname : ¬IsDate family := fun hdate => not_isRun_digit_of_alpha hfamily ⟨hfamily.1, hdate.2⟩
  cases h with
  | familyFirst m n =>
    exact removeDate_undated (CLAUDE ++ (family ++ '-' :: m.digits)) (by simp) (hdigits n)
      n.not_isDate
  | versionFirst m n =>
    exact removeDate_undated (CLAUDE ++ (m.digits ++ '-' :: n.digits)) (by simp) hletters hname
  | dotted m n =>
    exact removeDate_undated (CLAUDE ++ family) (by simp) (ne_hyphen_dotted m.isRun n.isRun)
      (dotted_not_isDate _ _)
  | majorLast m =>
    exact removeDate_undated (CLAUDE ++ family) (by simp) (hdigits m) m.not_isDate
  | majorFirst m => exact removeDate_undated (CLAUDE ++ m.digits) (by simp) hletters hname

/-- All spellings of a family and a version become one. -/
theorem normalizeSdkModelId_of_isSpelling {family : FamilyName} {version : VersionNumber}
    {id : String} (h : IsSpelling family version id) :
    normalizeSdkModelId id = some ⟨family.lower, version.text⟩ := by
  obtain ⟨s, hspells, heq | ⟨d, hd, heq⟩⟩ := h
  · rw [normalizeSdkModelId, heq, removeDate_of_spells hspells family.isRun_lower,
      matchPatterns_of_spells hspells family.isRun_lower]
  · rw [normalizeSdkModelId, heq, removeDate_append hd,
      matchPatterns_of_spells hspells family.isRun_lower]

/-! ## Versions are told apart -/

theorem VersionPart.ext {m n : VersionPart} (h : m.digits = n.digits) : m = n := by
  cases m
  cases n
  cases h
  rfl

theorem VersionNumber.text_injective : Function.Injective VersionNumber.text := by
  have hpoint : ∀ m n k : VersionPart, m.digits ++ '.' :: n.digits ≠ k.digits := by
    intro m n k h
    refine k.isRun.notMem (d := '.') (by decide) ?_
    rw [← h]
    simp
  intro v w h
  cases v with
  | major m =>
    cases w with
    | major k => rw [VersionPart.ext h]
    | minor k l => exact absurd h.symm (hpoint k l m)
  | minor m n =>
    cases w with
    | major k => exact absurd h (hpoint m n k)
    | minor k l =>
      obtain ⟨hm, hn⟩ := append_class_inj m.isRun.2 k.isRun.2 (by simp) (by simp) h
      rw [VersionPart.ext hm, VersionPart.ext (List.cons.inj hn).2]

/-! ## What the patterns give -/

/-- One number, or two with a point. -/
def IsVersion (s : List Char) : Prop :=
  IsRun Char.isDigit s ∨
    ∃ m n, IsRun Char.isDigit m ∧ IsRun Char.isDigit n ∧ s = m ++ '.' :: n

theorem parts_of_two {p q : Char → Bool} {s a b : List Char}
    (h : (twoParts p q).exec s = some [some a, some b]) :
    (IsRun p a ∧ ∀ x ∈ a, x ∈ s) ∧ IsRun q b ∧ ∀ x ∈ b, x ∈ s := by
  obtain ⟨a', b', ha, hb, rfl, hcaptures⟩ := twoParts_matches_iff.mp (matches_of_exec h)
  obtain ⟨rfl, rfl⟩ : a = a' ∧ b = b' := by simpa using hcaptures
  exact ⟨⟨ha, fun x hx => by simp [hx]⟩, hb, fun x hx => by simp [hx]⟩

theorem parts_of_three {p q r : Char → Bool} {separator : Char} {s a b c : List Char}
    (h : (threeParts p q separator r).exec s = some [some a, some b, some c]) :
    (IsRun p a ∧ ∀ x ∈ a, x ∈ s) ∧ IsRun q b ∧ IsRun r c ∧ ∀ x ∈ c, x ∈ s := by
  obtain ⟨a', b', c', ha, hb, hc, rfl, hcaptures⟩ :=
    threeParts_matches_iff.mp (matches_of_exec h)
  obtain ⟨rfl, rfl, rfl⟩ : a = a' ∧ b = b' ∧ c = c' := by simpa using hcaptures
  exact ⟨⟨ha, fun x hx => by simp [hx]⟩, hb, hc, fun x hx => by simp [hx]⟩

theorem matchPatterns_eq_some {s : List Char} {t : NormalizedId} (h : matchPatterns s = some t) :
    IsRun isWordChar t.family ∧ IsVersion t.version ∧ ∀ c ∈ t.family, c ∈ s := by
  unfold matchPatterns at h
  split at h
  · next family major minor hexec =>
    obtain rfl := Option.some.inj h
    obtain ⟨⟨hfamily, hmem⟩, hmajor, hminor, -⟩ := parts_of_three hexec
    exact ⟨hfamily, .inr ⟨major, minor, hmajor, hminor, rfl⟩, hmem⟩
  split at h
  · next major minor family hexec =>
    obtain rfl := Option.some.inj h
    obtain ⟨⟨hmajor, -⟩, hminor, hfamily, hmem⟩ := parts_of_three hexec
    exact ⟨hfamily, .inr ⟨major, minor, hmajor, hminor, rfl⟩, hmem⟩
  split at h
  · next family major minor hexec =>
    obtain rfl := Option.some.inj h
    obtain ⟨⟨hfamily, hmem⟩, hmajor, hminor, -⟩ := parts_of_three hexec
    exact ⟨hfamily, .inr ⟨major, minor, hmajor, hminor, rfl⟩, hmem⟩
  split at h
  · next family version hexec =>
    obtain rfl := Option.some.inj h
    obtain ⟨⟨hfamily, hmem⟩, hversion, -⟩ := parts_of_two hexec
    exact ⟨hfamily, .inl hversion, hmem⟩
  split at h
  · next version family hexec =>
    obtain rfl := Option.some.inj h
    obtain ⟨⟨hversion, -⟩, hfamily, hmem⟩ := parts_of_two hexec
    exact ⟨hfamily, .inl hversion, hmem⟩
  · cases h

theorem lowerChar_family {id : String} {t : NormalizedId} (h : normalizeSdkModelId id = some t) :
    ∀ c ∈ t.family, lowerChar c = c := by
  intro c hc
  have hmem := (matchPatterns_eq_some h).2.2 c hc
  obtain ⟨d, -, rfl⟩ := List.mem_map.mp ((removeAtEnd_sublist _ _).subset hmem)
  exact lowerChar_lowerChar d

/-- The name of a normal form has that normal form, unless its version looks like a date. -/
theorem normalizeSdkModelId_nameOf {id : String} {t : NormalizedId}
    (h : normalizeSdkModelId id = some t) (hdate : ¬IsDate t.version) :
    normalizeSdkModelId (nameOf t) = some t := by
  obtain ⟨hfamily, hversion, -⟩ := matchPatterns_eq_some h
  have hchars : ∀ c ∈ t.version, lowerChar c = c ∧ c ≠ '-' := by
    intro c hc
    obtain hrun | ⟨m, n, hm, hn, heq⟩ := hversion
    · exact ⟨lowerChar_of_digit (hrun.2 c hc), hrun.ne (by decide) c hc⟩
    · rw [heq] at hc
      refine ⟨?_, ne_hyphen_dotted hm hn c hc⟩
      obtain hc | rfl | hc := by simpa using hc
      · exact lowerChar_of_digit (hm.2 c hc)
      · decide
      · exact lowerChar_of_digit (hn.2 c hc)
  have hlower : lowerCase (nameOf t).toList = CLAUDE ++ (t.family ++ '-' :: t.version) := by
    rw [nameOf, String.toList_ofList, List.append_assoc]
    refine lowerCase_eq_self fun c hc => ?_
    obtain hc | hc | rfl | hc := by simpa using hc
    · have hall : CLAUDE.all (fun c => lowerChar c = c) := by decide
      exact of_decide_eq_true (List.all_eq_true.1 hall c hc)
    · exact lowerChar_family h c hc
    · decide
    · exact (hchars c hc).1
  have hundated := removeDate_undated (CLAUDE ++ t.family)
    (by simp : CLAUDE ++ (t.family ++ '-' :: t.version) = _) (fun c hc => (hchars c hc).2) hdate
  rw [normalizeSdkModelId, hlower, hundated]
  obtain hrun | ⟨m, n, hm, hn, heq⟩ := hversion
  · exact matchPatterns_majorLast hfamily hrun
  · rw [heq, matchPatterns_dotted hfamily hm hn, ← heq]

/-! ## The lookup -/

/-- One of the fields that are compared has this normal form. -/
def HasField (m : Model) (t : NormalizedId) : Prop :=
  normalizeSdkModelId m.id = some t ∨ normalizeSdkModelId m.version = some t ∨
    normalizeSdkModelId m.capabilities.family = some t

theorem hasField_of_normalizeModel {m : Model} {t : NormalizedId} (h : normalizeModel m = some t) :
    HasField m t := by
  obtain hversion | ⟨-, hrest⟩ := Option.or_eq_some_iff.mp h
  · exact .inr (.inl hversion)
  · obtain hfamily | ⟨-, hid⟩ := Option.or_eq_some_iff.mp hrest
    · exact .inr (.inr hfamily)
    · exact .inl hid

/-- Without an exact match the lookup goes by the name, then by the normal forms. -/
theorem findInModels_of_normalize {q : String} {models : List Model} {t : NormalizedId}
    (hexact : ∀ m ∈ models, m.id ≠ q) (hq : normalizeSdkModelId q = some t) :
    findInModels q models =
      (models.find? fun m => m.id = nameOf t || m.version = nameOf t).or
        (models.find? fun m => normalizeModel m = some t) := by
  have hnone : models.find? (·.id = q) = none := by simpa using hexact
  rw [findInModels, hnone, hq]
  dsimp only
  split
  · next m hm => rw [hm, Option.some_or]
  · next hm => rw [hm, Option.none_or]

theorem findInModels_sound {q : String} {models : List Model} {m : Model}
    (hexact : ∀ m ∈ models, m.id ≠ q)
    (hdate : ∀ t, normalizeSdkModelId q = some t → ¬IsDate t.version)
    (h : findInModels q models = some m) :
    m ∈ models ∧ ∃ t, normalizeSdkModelId q = some t ∧ HasField m t := by
  cases hq : normalizeSdkModelId q with
  | none =>
    have hnone : models.find? (·.id = q) = none := by simpa using hexact
    rw [findInModels, hnone, hq] at h
    cases h
  | some t =>
    have hname := normalizeSdkModelId_nameOf hq (hdate t hq)
    rw [findInModels_of_normalize hexact hq] at h
    obtain hbyName | ⟨-, hbyTuple⟩ := Option.or_eq_some_iff.mp h
    · refine ⟨List.mem_of_find?_eq_some hbyName, t, rfl, ?_⟩
      have hfield := List.find?_some hbyName
      rw [Bool.or_eq_true, decide_eq_true_eq, decide_eq_true_eq] at hfield
      obtain hid | hversion := hfield
      · exact .inl (hid ▸ hname)
      · exact .inr (.inl (hversion ▸ hname))
    · have hnormal := List.find?_some hbyTuple
      exact ⟨List.mem_of_find?_eq_some hbyTuple, t, rfl,
        hasField_of_normalizeModel (of_decide_eq_true hnormal)⟩

theorem findInModels_complete {q : String} {models : List Model} {t : NormalizedId}
    (hexact : ∀ m ∈ models, m.id ≠ q) (hq : normalizeSdkModelId q = some t)
    (h : ∃ m ∈ models, normalizeModel m = some t) : (findInModels q models).isSome := by
  obtain ⟨m, hmem, hm⟩ := h
  have hfind : (models.find? fun m => normalizeModel m = some t).isSome :=
    List.find?_isSome.mpr ⟨m, hmem, decide_eq_true hm⟩
  rw [findInModels_of_normalize hexact hq, Option.isSome_or, hfind, Bool.or_true]

/-- All spellings of a family and a version have one normal form, no spelling of another has it,
and what the lookup finds has the normal form of what was asked for. A version that is a number of
eight digits by itself would be taken for a date. -/
theorem normalisation_identifies :
    (∀ family version id, IsSpelling family version id →
      normalizeSdkModelId id = some ⟨family.lower, version.text⟩) ∧
    (∀ (family other : FamilyName) (version otherVersion : VersionNumber) (id : String),
      IsSpelling other otherVersion id →
        normalizeSdkModelId id = some ⟨family.lower, version.text⟩ →
          other.lower = family.lower ∧ otherVersion = version) ∧
    ∀ (q : String) (models : List Model), (∀ m ∈ models, m.id ≠ q) →
      ((∀ t, normalizeSdkModelId q = some t → ¬IsDate t.version) →
        ∀ m, findInModels q models = some m →
          m ∈ models ∧ ∃ t, normalizeSdkModelId q = some t ∧ HasField m t) ∧
      ∀ t, normalizeSdkModelId q = some t → (∃ m ∈ models, normalizeModel m = some t) →
        (findInModels q models).isSome := by
  refine ⟨fun _ _ _ h => normalizeSdkModelId_of_isSpelling h, ?_, ?_⟩
  · intro family other version otherVersion id hspelling hid
    rw [normalizeSdkModelId_of_isSpelling hspelling] at hid
    obtain ⟨hfamily, hversion⟩ := (NormalizedId.mk.injEq ..).mp (Option.some.inj hid)
    exact ⟨hfamily, VersionNumber.text_injective hversion⟩
  · exact fun q models hexact => ⟨fun hdate m h => findInModels_sound hexact hdate h,
      fun t hq h => findInModels_complete hexact hq h⟩

def sonnet : FamilyName := ⟨"Sonnet".toList, isRun_of_all (by decide +kernel) (by decide +kernel)⟩

def threeFive : VersionNumber :=
  .minor ⟨['3'], isRun_of_all (by decide) (by decide), by decide⟩
    ⟨['5'], isRun_of_all (by decide) (by decide), by decide⟩

/-- The version first, with a date. -/
theorem normalisation_identifies_sonnet :
    normalizeSdkModelId "Claude-3-5-Sonnet-20241022" = some ⟨sonnet.lower, threeFive.text⟩ ∧
      (findInModels "Claude-3-5-Sonnet-20241022"
        [⟨"claude-sonnet-3.5", "claude-sonnet-3.5", ⟨"claude-sonnet-3.5"⟩⟩]).isSome = true := by
  have hdate : IsDate "20241022".toList := ⟨rfl, List.all_eq_true.mp (by decide +kernel)⟩
  have hspelling : IsSpelling sonnet threeFive "Claude-3-5-Sonnet-20241022" :=
    ⟨_, .versionFirst _ _, .inr ⟨_, hdate, by decide +kernel⟩⟩
  have hid := normalisation_identifies.1 sonnet threeFive _ hspelling
  refine ⟨hid, ?_⟩
  obtain ⟨-, -, hfinds⟩ := normalisation_identifies
  refine (hfinds _ _ ?_).2 _ hid ⟨_, List.mem_singleton_self _, by decide +kernel⟩
  exact fun m hm => by rw [List.mem_singleton.1 hm]; decide

end Maximal.Models
