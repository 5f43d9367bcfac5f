import Maximal.Lib.Js.NumberText
import Maximal.Update.UpdateCheck
import Mathlib.Data.List.Lex
import Mathlib.Data.List.TakeWhile
import Mathlib.Data.Prod.Lex
import Mathlib.Data.Sum.Order
import Mathlib.Order.WithBot

/-!
# The order of versions

`isNewerVersion` compares two versions part by part. It is the order of a key, and on semantic
versions that order is their precedence.

## Main definitions

- `versionKey` — the place of a version in the order
- `Version` — a text that `VERSION_RE` accepts, with numbers that are read exactly
- `SemanticVersion`, `SemanticVersion.Precedes` — semantic versions and their precedence

## Main results

- `isNewerVersion_iff` — newer is later in the order of the keys
- `isNewerVersion_order` — a strict weak order, which is precedence on semantic versions
-/

namespace Maximal.Update

open Js Js.Number

/-! ## The keys -/

/-- Numbers come before texts. -/
abbrev IdentifierKey := ℤ ⊕ₗ List ℕ

def identifierKey (id : List Char) : IdentifierKey :=
  if isNumeric id then toLex (.inl (parseIntOrZero id)) else toLex (.inr (codeUnits id))

/-- A version without a prerelease comes after those with one. -/
abbrev VersionKey := ℤ ×ₗ ℤ ×ₗ ℤ ×ₗ WithTop (List IdentifierKey)

def prereleaseKey (ids : List (List Char)) : WithTop (List IdentifierKey) :=
  if ids = [] then ⊤ else (ids.map identifierKey : List IdentifierKey)

def versionKey (v : String) : VersionKey :=
  let v := parseSemver v
  toLex (v.major, toLex (v.minor, toLex (v.patch, prereleaseKey v.prerelease)))

theorem codeUnits_cons (c : Char) (s : List Char) :
    codeUnits (c :: s) =
      (if c.toNat < 0x10000 then [c.toNat]
        else [0xD800 + (c.toNat - 0x10000) / 0x400, 0xDC00 + (c.toNat - 0x10000) % 0x400]) ++
      codeUnits s := rfl

theorem toNat_notSurrogate (c : Char) :
    c.toNat < 0xD800 ∨ 0xDFFF < c.toNat ∧ c.toNat < 0x110000 := c.valid

/-- The first unit of a text tells whether its first character has one or two. -/
theorem codeUnits_injective : Function.Injective codeUnits := by
  intro s t h
  induction s generalizing t with
  | nil =>
    cases t with
    | nil => rfl
    | cons d t => rw [codeUnits_cons] at h; split at h <;> simp [codeUnits] at h
  | cons c s ih =>
    cases t with
    | nil => rw [codeUnits_cons] at h; split at h <;> simp [codeUnits] at h
    | cons d t =>
      have hc := toNat_notSurrogate c
      have hd := toNat_notSurrogate d
      have key : c.toNat = d.toNat ∧ codeUnits s = codeUnits t := by
        rw [codeUnits_cons, codeUnits_cons] at h
        split at h <;> split at h <;>
          simp only [List.cons_append, List.nil_append, List.cons.injEq] at h
        · exact h
        · omega
        · omega
        · exact ⟨by omega, h.2.2⟩
      rw [Char.ext (UInt32.toNat_inj.mp key.1), ih key.2]

/-- Identifiers compare as their keys do, as long as two texts are compared as wholes. -/
theorem newerPrerelease_iff (as bs : List (List Char)) :
    newerPrerelease as bs ↔ bs.map identifierKey < as.map identifierKey := by
  induction as generalizing bs with
  | nil => simp [newerPrerelease]
  | cons a as ih =>
    cases bs with
    | nil => simp [newerPrerelease]
    | cons b bs =>
      rw [List.map_cons, List.map_cons, List.cons_lt_cons_iff, newerPrerelease, ← ih]
      unfold identifierKey
      cases ha : isNumeric a <;> cases hb : isNumeric b
      · by_cases hab : a = b
        · simp [hab]
        · have hne : codeUnits b ≠ codeUnits a := fun h => hab (codeUnits_injective h).symm
          simp [hab, hne]
      · simp
      · simp
      · by_cases hab : parseIntOrZero a = parseIntOrZero b
        · simp [hab]
        · simp [hab, Ne.symm hab]

theorem prereleaseKey_lt_iff (as bs : List (List Char)) :
    prereleaseKey bs < prereleaseKey as ↔
      if as = [] ∨ bs = [] then bs ≠ [] else newerPrerelease as bs := by
  unfold prereleaseKey
  by_cases ha : as = [] <;> by_cases hb : bs = [] <;> simp [ha, hb, newerPrerelease_iff]

theorem isNewerVersion_iff (a b : String) : isNewerVersion a b ↔ versionKey b < versionKey a := by
  unfold isNewerVersion versionKey
  simp only [Prod.Lex.toLex_lt_toLex, prereleaseKey_lt_iff]
  by_cases hmajor : (parseSemver a).major = (parseSemver b).major
  · by_cases hminor : (parseSemver a).minor = (parseSemver b).minor
    · by_cases hpatch : (parseSemver a).patch = (parseSemver b).patch
      · simp [hmajor, hminor, hpatch]
      · simp [hmajor, hminor, hpatch, Ne.symm hpatch]
    · simp [hmajor, hminor, Ne.symm hminor]
  · simp [hmajor, Ne.symm hmajor]

/-! ## Semantic versions -/

/-- An identifier of letters, digits and hyphens that is not a number. -/
structure Alphanumeric where
  text : List Char
  chars : ∀ c ∈ text, c.isAlphanum ∨ c = '-'
  notNumeric : ∃ c ∈ text, ¬ c.isDigit

inductive Identifier where
  | numeric (n : ℕ)
  | alphanumeric (id : Alphanumeric)

def Identifier.text : Identifier → List Char
  | numeric n => n.repr.toList
  | alphanumeric id => id.text

/-- A version as the specification of semantic versions has it. Build metadata, which `VERSION_RE`
refuses, is left out. -/
structure SemanticVersion where
  major : ℕ
  minor : ℕ
  patch : ℕ
  prerelease : List Identifier

/-- The text of the three numbers. -/
def SemanticVersion.core (v : SemanticVersion) : List Char :=
  ['.'].intercalate [v.major.repr.toList, v.minor.repr.toList, v.patch.repr.toList]

def SemanticVersion.text (v : SemanticVersion) : List Char :=
  v.core ++
    if v.prerelease = [] then [] else '-' :: ['.'].intercalate (v.prerelease.map (·.text))

/-- Numbers by size, texts in the order of their characters, a number before any text. -/
inductive Identifier.Precedes : Identifier → Identifier → Prop where
  | numeric {m n : ℕ} (h : m < n) : Precedes (.numeric m) (.numeric n)
  | mixed (n : ℕ) (id : Alphanumeric) : Precedes (.numeric n) (.alphanumeric id)
  | alphanumeric {a b : Alphanumeric} (h : a.text < b.text) :
    Precedes (.alphanumeric a) (.alphanumeric b)

/-- A prerelease precedes its release; of two prereleases the first difference decides, and one
that continues the other comes later. -/
def PrereleasePrecedes (as bs : List Identifier) : Prop :=
  as ≠ [] ∧ (bs = [] ∨ List.Lex Identifier.Precedes as bs)

inductive SemanticVersion.Precedes (a b : SemanticVersion) : Prop where
  | major (h : a.major < b.major)
  | minor (hmajor : a.major = b.major) (h : a.minor < b.minor)
  | patch (hmajor : a.major = b.major) (hminor : a.minor = b.minor) (h : a.patch < b.patch)
  | prerelease (hmajor : a.major = b.major) (hminor : a.minor = b.minor)
    (hpatch : a.patch = b.patch) (h : PrereleasePrecedes a.prerelease b.prerelease)

theorem isNumeric_repr (n : ℕ) : isNumeric n.repr.toList := by
  rw [isNumeric, Bool.and_eq_true, decide_eq_true_eq, List.all_eq_true]
  exact ⟨repr_ne_nil n, digits_repr n⟩

theorem Alphanumeric.isNumeric_text (id : Alphanumeric) : isNumeric id.text = false := by
  obtain ⟨c, hc, hdigit⟩ := id.notNumeric
  rw [isNumeric, Bool.and_eq_false_iff, List.all_eq_false]
  exact .inr ⟨c, hc, hdigit⟩

/-- Among the digits of a number is neither a space nor a sign. -/
theorem parseIntOrZero_repr (n : ℕ) : parseIntOrZero n.repr.toList = n := by
  have hplain : ∀ c : Char, c.isDigit → isWhite c = false ∧ c ≠ '-' ∧ c ≠ '+' := by
    intro c hc
    have hrange : 48 ≤ c.toNat ∧ c.toNat ≤ 57 := Char.isDigit_iff_toNat.mp hc
    refine ⟨?_, ?_, ?_⟩
    · simp only [isWhite, List.mem_cons, List.not_mem_nil, or_false, Bool.or_eq_false_iff,
        decide_eq_false_iff_not, Bool.and_eq_false_iff]
      omega
    · rintro rfl; exact absurd hc (by decide)
    · rintro rfl; exact absurd hc (by decide)
  have hdigits := digits_repr n
  obtain ⟨c, cs, hcs⟩ := List.exists_cons_of_ne_nil (repr_ne_nil n)
  have hhead := hplain c (hdigits c (by rw [hcs]; exact List.mem_cons_self))
  have hwhite : n.repr.toList.dropWhile isWhite = n.repr.toList := by
    rw [hcs, List.dropWhile_cons_of_neg (by simp [hhead.1])]
  have hsign : n.repr.toList.head? ≠ some '-' ∧ n.repr.toList.head? ≠ some '+' := by
    simp [hcs, hhead.2]
  have hall : n.repr.toList.takeWhile Char.isDigit = n.repr.toList :=
    List.takeWhile_eq_self_iff.mpr hdigits
  simp only [parseIntOrZero, hwhite, hsign, or_self, if_false, hall, ofDigitChars_repr]

theorem codeUnits_of_small {s : List Char} (h : ∀ c ∈ s, c.toNat < 0x10000) :
    codeUnits s = s.map Char.toNat := by
  induction s with
  | nil => rfl
  | cons c s ih =>
    rw [codeUnits_cons, if_pos (h c List.mem_cons_self),
      ih fun d hd => h d (List.mem_cons_of_mem c hd)]
    rfl

theorem toNat_lt_of_isAlphanum {c : Char} (h : c.isAlphanum) : c.toNat < 0x80 := by
  have hkind : (c.isUpper ∨ c.isLower) ∨ c.isDigit :=
    (Bool.or_eq_true_iff.mp h).imp_left Bool.or_eq_true_iff.mp
  obtain (hupper | hlower) | hdigit := hkind
  · have hle : c.toNat ≤ 'Z'.toNat := (of_decide_eq_true hupper).2
    exact lt_of_le_of_lt hle (by decide)
  · have hle : c.toNat ≤ 'z'.toNat := of_decide_eq_true (Bool.and_eq_true_iff.mp hlower).2
    exact lt_of_le_of_lt hle (by decide)
  · have hle : c.toNat ≤ '9'.toNat := (Char.isDigit_iff_toNat.mp hdigit).2
    exact lt_of_le_of_lt hle (by decide)

theorem Alphanumeric.small (id : Alphanumeric) : ∀ c ∈ id.text, c.toNat < 0x10000 := by
  intro c hc
  obtain h | rfl := id.chars c hc
  · exact (toNat_lt_of_isAlphanum h).trans (by decide)
  · decide

theorem map_toNat_lt_iff (s t : List Char) : s.map Char.toNat < t.map Char.toNat ↔ s < t := by
  induction s generalizing t with
  | nil => cases t <;> simp
  | cons c s ih =>
    cases t with
    | nil => simp
    | cons d t =>
      have hlt : c.toNat < d.toNat ↔ c < d := Iff.rfl
      have heq : c.toNat = d.toNat ↔ c = d := Char.toNat_inj
      simp only [List.map_cons, List.cons_lt_cons_iff, hlt, heq, ih]

theorem codeUnits_lt_iff (a b : Alphanumeric) :
    codeUnits a.text < codeUnits b.text ↔ a.text < b.text := by
  rw [codeUnits_of_small a.small, codeUnits_of_small b.small, map_toNat_lt_iff]

/-! ## Reading a semantic version -/

theorem Identifier.dot_notMem_text (id : Identifier) : '.' ∉ id.text := by
  intro h
  cases id with
  | numeric n => exact absurd (digits_repr n '.' h) (by decide)
  | alphanumeric id =>
    obtain h | h := id.chars '.' h
    · exact absurd h (by decide)
    · exact absurd h (by decide)

theorem SemanticVersion.splitOn_core (v : SemanticVersion) :
    v.core.splitOn '.' = [v.major.repr.toList, v.minor.repr.toList, v.patch.repr.toList] := by
  refine List.splitOn_intercalate _ (fun cs hcs hdot => ?_) (by simp)
  have hdigits : Digits cs := by
    simp only [List.mem_cons, List.not_mem_nil, or_false] at hcs
    obtain rfl | rfl | rfl := hcs <;> exact digits_repr _
  exact absurd (hdigits '.' hdot) (by decide)

theorem SemanticVersion.core_ne_hyphen (v : SemanticVersion) : ∀ c ∈ v.core, c ≠ '-' := by
  rintro c hc rfl
  simp only [core, List.intercalate_cons_cons, List.intercalate_singleton, List.mem_append,
    List.mem_singleton] at hc
  obtain (h | h) | (h | h) | h := hc
  · exact absurd (digits_repr _ '-' h) (by decide)
  · exact absurd h (by decide)
  · exact absurd (digits_repr _ '-' h) (by decide)
  · exact absurd h (by decide)
  · exact absurd (digits_repr _ '-' h) (by decide)

/-- What `isNewerVersion` compares of a text that is that of a semantic version. -/
theorem SemanticVersion.parseSemver_eq {s : String} {v : SemanticVersion}
    (h : dropV s.toList = v.text) :
    parseSemver s = ⟨v.major, v.minor, v.patch, v.prerelease.map (·.text)⟩ := by
  have hcore : ∀ c ∈ v.core, decide (c ≠ '-') = true := fun c hc =>
    decide_eq_true (v.core_ne_hyphen c hc)
  have hparts : ((v.core.splitOn '.').map parseIntOrZero) = [(v.major : ℤ), v.minor, v.patch] := by
    rw [v.splitOn_core]
    simp only [List.map_cons, List.map_nil, parseIntOrZero_repr]
  have htext : v.text = v.core ++
      if v.prerelease = [] then [] else '-' :: ['.'].intercalate (v.prerelease.map (·.text)) := rfl
  by_cases hnone : v.prerelease = []
  · rw [if_pos hnone] at htext
    simp only [parseSemver, h, htext, List.takeWhile_append_of_pos hcore,
      List.dropWhile_append_of_pos hcore]
    simp [hparts, hnone]
  · rw [if_neg hnone] at htext
    have hsplit : (['.'].intercalate (v.prerelease.map (·.text))).splitOn '.' =
        v.prerelease.map (·.text) := by
      refine List.splitOn_intercalate _ (fun cs hcs => ?_) (by simpa using hnone)
      obtain ⟨id, -, rfl⟩ := List.mem_map.mp hcs
      exact id.dot_notMem_text
    simp only [parseSemver, h, htext, List.takeWhile_append_of_pos hcore,
      List.dropWhile_append_of_pos hcore]
    simp [hparts, hsplit]

@[simp] theorem Identifier.precedes_numeric {m n : ℕ} :
    Precedes (.numeric m) (.numeric n) ↔ m < n :=
  ⟨fun h => by cases h with | numeric h => exact h, .numeric⟩

@[simp] theorem Identifier.precedes_alphanumeric {a b : Alphanumeric} :
    Precedes (.alphanumeric a) (.alphanumeric b) ↔ a.text < b.text :=
  ⟨fun h => by cases h with | alphanumeric h => exact h, .alphanumeric⟩

@[simp] theorem Identifier.precedes_mixed {n : ℕ} {id : Alphanumeric} :
    Precedes (.numeric n) (.alphanumeric id) := .mixed n id

@[simp] theorem Identifier.not_precedes_mixed {n : ℕ} {id : Alphanumeric} :
    ¬ Precedes (.alphanumeric id) (.numeric n) := nofun

theorem Alphanumeric.text_inj {a b : Alphanumeric} : a.text = b.text ↔ a = b := by
  cases a
  cases b
  simp

/-- Identifier by identifier, as the specification has it. -/
theorem newerPrerelease_text (as bs : List Identifier) :
    newerPrerelease (as.map (·.text)) (bs.map (·.text)) ↔ List.Lex Identifier.Precedes bs as := by
  induction as generalizing bs with
  | nil => simp [newerPrerelease]
  | cons a as ih =>
    cases bs with
    | nil => simp [newerPrerelease]
    | cons b bs =>
      rw [List.map_cons, List.map_cons, newerPrerelease, List.cons_lex_cons_iff, ← ih]
      cases a with
      | numeric m =>
        cases b with
        | numeric n =>
          simp only [Identifier.text, isNumeric_repr, parseIntOrZero_repr]
          by_cases hmn : m = n
          · simp [hmn]
          · simp [hmn, Ne.symm hmn]
        | alphanumeric b =>
          simp only [Identifier.text, isNumeric_repr, b.isNumeric_text]
          simp
      | alphanumeric a =>
        cases b with
        | numeric n =>
          simp only [Identifier.text, isNumeric_repr, a.isNumeric_text]
          simp
        | alphanumeric b =>
          simp only [Identifier.text, a.isNumeric_text, b.isNumeric_text, codeUnits_lt_iff]
          by_cases hab : a = b
          · simp [hab]
          · simp [hab, Ne.symm hab, Alphanumeric.text_inj]

/-- The first number that differs decides, and the prerelease where none does. -/
theorem SemanticVersion.precedes_iff (a b : SemanticVersion) :
    a.Precedes b ↔
      if b.major ≠ a.major then a.major < b.major
      else if b.minor ≠ a.minor then a.minor < b.minor
      else if b.patch ≠ a.patch then a.patch < b.patch
      else PrereleasePrecedes a.prerelease b.prerelease := by
  constructor
  · intro h
    cases h with
    | major h => rw [if_pos (by omega)]; exact h
    | minor hmajor h => rw [if_neg (by omega), if_pos (by omega)]; exact h
    | patch hmajor hminor h =>
      rw [if_neg (by omega), if_neg (by omega), if_pos (by omega)]; exact h
    | prerelease hmajor hminor hpatch h =>
      rw [if_neg (by omega), if_neg (by omega), if_neg (by omega)]; exact h
  · intro h
    by_cases hmajor : b.major = a.major
    · by_cases hminor : b.minor = a.minor
      · by_cases hpatch : b.patch = a.patch
        · simp only [hmajor, hminor, hpatch, ne_eq, not_true_eq_false, if_false] at h
          exact .prerelease hmajor.symm hminor.symm hpatch.symm h
        · simp only [hmajor, hminor, hpatch, ne_eq, not_true_eq_false, if_false, not_false_eq_true,
            if_true] at h
          exact .patch hmajor.symm hminor.symm h
      · simp only [hmajor, hminor, ne_eq, not_true_eq_false, if_false, not_false_eq_true,
          if_true] at h
        exact .minor hmajor.symm h
    · rw [if_pos hmajor] at h
      exact .major h

theorem isNewerVersion_semver {s t : String} {a b : SemanticVersion}
    (hs : dropV s.toList = a.text) (ht : dropV t.toList = b.text) :
    isNewerVersion s t ↔ b.Precedes a := by
  have hprerelease : PrereleasePrecedes b.prerelease a.prerelease ↔
      if a.prerelease = [] ∨ b.prerelease = [] then b.prerelease ≠ []
      else newerPrerelease (a.prerelease.map (·.text)) (b.prerelease.map (·.text)) := by
    rw [newerPrerelease_text, PrereleasePrecedes]
    by_cases ha : a.prerelease = []
    · simp [ha]
    · by_cases hb : b.prerelease = []
      · simp [hb]
      · simp [ha, hb]
  unfold isNewerVersion
  simp only [SemanticVersion.parseSemver_eq hs, SemanticVersion.parseSemver_eq ht,
    SemanticVersion.precedes_iff, hprerelease]
  simp only [ne_eq, Nat.cast_inj, Nat.cast_lt, List.map_eq_nil_iff]
  split
  · exact decide_eq_true_iff
  split
  · exact decide_eq_true_iff
  split
  · exact decide_eq_true_iff
  split
  · exact decide_eq_true_iff
  · rfl

/-! ## The order -/

/-- Every number is one that `Number.parseInt` reads without rounding. -/
def Semver.Exact (v : Semver) : Prop :=
  (v.major < 2 ^ 53 ∧ v.minor < 2 ^ 53 ∧ v.patch < 2 ^ 53) ∧
    ∀ id ∈ v.prerelease, isNumeric id → parseIntOrZero id < 2 ^ 53

/-- A text that `VERSION_RE` accepts. -/
structure Version where
  text : String
  accepted : (matchVersion text).isSome
  exact : (parseSemver text).Exact

/-- What the group of the match holds: the text without a `v` in front. -/
def Version.matched (v : Version) : String := (matchVersion v.text).get v.accepted

theorem Version.matched_toList (v : Version) : v.matched.toList = dropV v.text.toList := by
  have h : matchVersion v.text = some v.matched := (Option.some_get v.accepted).symm
  rw [matchVersion, Option.ite_none_right_eq_some] at h
  rw [← Option.some_inj.mp h.2, String.toList_ofList]

def Version.NewerThan (a b : Version) : Prop := isNewerVersion a.text b.text

/-- Neither is newer. -/
def Version.Incomparable (a b : Version) : Prop := ¬ a.NewerThan b ∧ ¬ b.NewerThan a

/-- On the versions that are accepted, being newer is a strict weak order, and on the semantic
versions among them it is their precedence. -/
theorem isNewerVersion_order :
    (∀ a : Version, ¬ a.NewerThan a) ∧
    (∀ a b : Version, a.NewerThan b → ¬ b.NewerThan a) ∧
    (∀ a b c : Version, a.NewerThan b → b.NewerThan c → a.NewerThan c) ∧
    (∀ a b c : Version, a.Incomparable b → b.Incomparable c → a.Incomparable c) ∧
    ∀ (a b : Version) (u v : SemanticVersion), a.matched.toList = u.text →
      b.matched.toList = v.text → (a.NewerThan b ↔ v.Precedes u) := by
  simp only [Version.Incomparable, Version.NewerThan, isNewerVersion_iff, not_lt]
  refine ⟨fun a => le_refl _, fun a b hab => le_of_lt hab, fun a b c hab hbc => hbc.trans hab,
    fun a b c hab hbc => ⟨hab.1.trans hbc.1, hbc.2.trans hab.2⟩, ?_⟩
  intro a b u v ha hb
  rw [← isNewerVersion_iff]
  rw [Version.matched_toList] at ha hb
  exact isNewerVersion_semver ha hb

def releaseCandidate : Version :=
  ⟨"v1.2.0-rc.1", by decide +kernel, by decide +kernel, by decide +kernel⟩

def release : Version := ⟨"1.2.0", by decide +kernel, by decide +kernel, by decide +kernel⟩

/-- A release and a candidate for it. -/
theorem isNewerVersion_order_release :
    release.NewerThan releaseCandidate ∧ ¬ releaseCandidate.NewerThan release := by
  have hnewer : isNewerVersion release.text releaseCandidate.text = true := by decide +kernel
  exact ⟨hnewer, isNewerVersion_order.2.1 _ _ hnewer⟩

end Maximal.Update
