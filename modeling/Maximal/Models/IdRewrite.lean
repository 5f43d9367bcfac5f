import Maximal.Lib.Js.NumberText
import Maximal.Lib.Js.Regex

/-!
# Rewriting model ids

Ids of Anthropic models go to the client with dashes and a date, and come back without them.

## Main definitions

- `forwardId`, `reverseId` — the two directions
- `IdParts` — what the ids that are rewritten consist of

## Main results

- `forwardId_dotted`, `reverseId_dashed` — what each direction does with the parts
- `rewriting_roundTrips`
-/

namespace Maximal.Models

open Js Regex

def SENTINEL_DATE : List Char := ['2', '0', '2', '6', '0', '3', '0', '1']

/-- `claude-`. -/
def CLAUDE : List Char := ['c', 'l', 'a', 'u', 'd', 'e', '-']

/-- `.` stands for every character but the ends of lines. -/
def isDot (c : Char) : Bool := c.toNat ∉ [0x0A, 0x0D, 0x2028, 0x2029]

/-- `claude-(opus|sonnet|haiku)-`. -/
def FAMILY_RE : Regex :=
  .seq (.text CLAUDE) <|
    .seq (.group (.alt (.text "opus".toList) (.alt (.text "sonnet".toList) (.text "haiku".toList))))
      (.text ['-'])

/-- `(\d+)`. -/
def NUMBER_RE : Regex := .group (.plus Char.isDigit)

/-- `(?:-(.*))?`. -/
def SUFFIX_RE : Regex := .opt (.seq (.text ['-']) (.group (.star isDot)))

def FORWARD_RE : Regex :=
  .seq FAMILY_RE <| .seq NUMBER_RE <| .seq (.text ['.']) <| .seq NUMBER_RE SUFFIX_RE

def REVERSE_RE : Regex :=
  .seq FAMILY_RE <| .seq NUMBER_RE <| .seq (.text ['-']) <| .seq NUMBER_RE <|
    .seq SUFFIX_RE (.text ('-' :: SENTINEL_DATE))

/-- An empty suffix is as good as none. -/
def suffixPart : Option (List Char) → List Char
  | some (c :: cs) => '-' :: c :: cs
  | _ => []

def forwardId (copilotId : String) : String :=
  match FORWARD_RE.exec copilotId.toList with
  | some [some family, some major, some minor, suffix] =>
    String.ofList (CLAUDE ++ family ++ '-' :: major ++ '-' :: minor ++ suffixPart suffix ++
      '-' :: SENTINEL_DATE)
  | _ => copilotId

def reverseId (anthropicId : String) : String :=
  match REVERSE_RE.exec anthropicId.toList with
  | some [some family, some major, some minor, suffix] =>
    String.ofList (CLAUDE ++ family ++ '-' :: major ++ '.' :: minor ++ suffixPart suffix)
  | _ => anthropicId

/-! ## Parts -/

def FAMILIES : List (List Char) := ["opus".toList, "sonnet".toList, "haiku".toList]

/-- What an id that is rewritten consists of. -/
structure IdParts where
  family : List Char
  major : List Char
  minor : List Char
  suffix : Option (List Char)
  family_mem : family ∈ FAMILIES
  major_ne : major ≠ []
  major_digits : Number.Digits major
  minor_ne : minor ≠ []
  minor_digits : Number.Digits minor
  suffix_dots : ∀ cs ∈ suffix, ∀ c ∈ cs, isDot c

namespace IdParts

def suffixText : Option (List Char) → List Char
  | none => []
  | some cs => '-' :: cs

/-- The id as the upstream has it. -/
def dotted (p : IdParts) : List Char :=
  (CLAUDE ++ p.family ++ ['-']) ++ (p.major ++ ('.' :: (p.minor ++ suffixText p.suffix)))

/-- The id as the client has it. -/
def dashed (p : IdParts) : List Char :=
  (CLAUDE ++ p.family ++ ['-']) ++
    (p.major ++ ('-' :: (p.minor ++ (suffixText p.suffix ++ '-' :: SENTINEL_DATE))))

def captures (p : IdParts) : Captures := [some p.family, some p.major, some p.minor, p.suffix]

end IdParts

theorem family_matches_iff (s : List Char) (c : Captures) :
    FAMILY_RE.Matches s c ↔
      ∃ family ∈ FAMILIES, s = CLAUDE ++ family ++ ['-'] ∧ c = [some family] := by
  rw [FAMILY_RE, matches_text_seq]
  simp only [matches_seq_text]
  constructor
  · rintro ⟨_, rfl, family, rfl, c₁, rfl, halt⟩
    obtain ⟨_, rfl, rfl, rfl⟩ | ⟨_, rfl, ⟨_, rfl, rfl, rfl⟩ | ⟨_, rfl, rfl, rfl⟩⟩ := halt
    · exact ⟨_, by decide, rfl, rfl⟩
    · exact ⟨_, by decide, rfl, rfl⟩
    · exact ⟨_, by decide, rfl, rfl⟩
  · rintro ⟨family, hfamily, rfl, rfl⟩
    refine ⟨family ++ ['-'], List.append_assoc .., family, rfl, [], rfl, ?_⟩
    simp only [FAMILIES, List.mem_cons, List.not_mem_nil, or_false] at hfamily
    obtain rfl | rfl | rfl := hfamily
    · exact .inl ⟨[], rfl, rfl, rfl⟩
    · exact .inr ⟨[], rfl, .inl ⟨[], rfl, rfl, rfl⟩⟩
    · exact .inr ⟨[], rfl, .inr ⟨[], rfl, rfl, rfl⟩⟩

theorem suffix_matches_iff (s : List Char) (c : Captures) :
    SUFFIX_RE.Matches s c ↔
      ∃ suffix : Option (List Char), (∀ cs ∈ suffix, ∀ c ∈ cs, isDot c) ∧
        s = IdParts.suffixText suffix ∧ c = [suffix] := by
  constructor
  · rintro (⟨-, hmatches⟩ | ⟨rfl, rfl⟩)
    · obtain ⟨cs, rfl, _, rfl, hdots, rfl⟩ := matches_text_seq.mp hmatches
      exact ⟨some cs, fun _ h => Option.some.inj h ▸ hdots, rfl, rfl⟩
    · exact ⟨none, nofun, rfl, rfl⟩
  · rintro ⟨suffix, hdots, rfl, rfl⟩
    cases suffix with
    | none => exact .inr ⟨rfl, rfl⟩
    | some cs =>
      exact .inl ⟨List.cons_ne_nil _ _, matches_text_seq.mpr ⟨cs, rfl, [], rfl, hdots cs rfl, rfl⟩⟩

/-- Family, number, separator, number, and whatever comes then. -/
theorem numbered_matches_iff (separator : Char) (tail : Regex) (s : List Char) (c : Captures) :
    (seq FAMILY_RE (seq NUMBER_RE (seq (text [separator]) (seq NUMBER_RE tail)))).Matches s c ↔
      ∃ family major minor s' c', family ∈ FAMILIES ∧ (major ≠ [] ∧ Number.Digits major) ∧
        (minor ≠ [] ∧ Number.Digits minor) ∧ tail.Matches s' c' ∧
        s = (CLAUDE ++ family ++ ['-']) ++ (major ++ (separator :: (minor ++ s'))) ∧
        c = [some family, some major, some minor] ++ c' := by
  constructor
  · rintro ⟨_, _, _, _, rfl, rfl, hfamily, major, _, _, _, rfl, rfl, hmajor, hrest⟩
    obtain ⟨_, rfl, minor, _, s', c', rfl, rfl, hminor, htail⟩ := matches_text_seq.mp hrest
    obtain ⟨family, hmem, rfl, rfl⟩ := (family_matches_iff _ _).mp hfamily
    obtain ⟨hmajor', rfl⟩ := matches_group_plus.mp hmajor
    obtain ⟨hminor', rfl⟩ := matches_group_plus.mp hminor
    exact ⟨family, major, minor, s', c', hmem, hmajor', hminor', htail, rfl, rfl⟩
  · rintro ⟨family, major, minor, s', c', hmem, hmajor, hminor, htail, rfl, rfl⟩
    refine ⟨_, [some family], _, [some major, some minor] ++ c', rfl, rfl,
      (family_matches_iff _ _).mpr ⟨family, hmem, rfl, rfl⟩, ?_⟩
    refine ⟨major, [some major], _, [some minor] ++ c', rfl, rfl,
      matches_group_plus.mpr ⟨hmajor, rfl⟩, ?_⟩
    exact matches_text_seq.mpr ⟨_, rfl, minor, [some minor], s', c', rfl, rfl,
      matches_group_plus.mpr ⟨hminor, rfl⟩, htail⟩

theorem forward_matches_iff (s : List Char) (c : Captures) :
    FORWARD_RE.Matches s c ↔ ∃ p : IdParts, s = p.dotted ∧ c = p.captures := by
  rw [FORWARD_RE, numbered_matches_iff]
  constructor
  · rintro ⟨family, major, minor, s', c', hmem, hmajor, hminor, htail, rfl, rfl⟩
    obtain ⟨suffix, hdots, rfl, rfl⟩ := (suffix_matches_iff _ _).mp htail
    exact ⟨⟨family, major, minor, suffix, hmem, hmajor.1, hmajor.2, hminor.1, hminor.2, hdots⟩,
      rfl, rfl⟩
  · rintro ⟨p, rfl, rfl⟩
    exact ⟨p.family, p.major, p.minor, _, [p.suffix], p.family_mem, ⟨p.major_ne, p.major_digits⟩,
      ⟨p.minor_ne, p.minor_digits⟩, (suffix_matches_iff _ _).mpr ⟨_, p.suffix_dots, rfl, rfl⟩,
      rfl, rfl⟩

theorem reverse_matches_iff (s : List Char) (c : Captures) :
    REVERSE_RE.Matches s c ↔ ∃ p : IdParts, s = p.dashed ∧ c = p.captures := by
  rw [REVERSE_RE, numbered_matches_iff]
  constructor
  · rintro ⟨family, major, minor, s', c', hmem, hmajor, hminor, htail, rfl, rfl⟩
    obtain ⟨_, rfl, hsuffix⟩ := matches_seq_text.mp htail
    obtain ⟨suffix, hdots, rfl, rfl⟩ := (suffix_matches_iff _ _).mp hsuffix
    exact ⟨⟨family, major, minor, suffix, hmem, hmajor.1, hmajor.2, hminor.1, hminor.2, hdots⟩,
      rfl, rfl⟩
  · rintro ⟨p, rfl, rfl⟩
    exact ⟨p.family, p.major, p.minor, _, [p.suffix], p.family_mem, ⟨p.major_ne, p.major_digits⟩,
      ⟨p.minor_ne, p.minor_digits⟩,
      matches_seq_text.mpr ⟨_, rfl, (suffix_matches_iff _ _).mpr ⟨_, p.suffix_dots, rfl, rfl⟩⟩,
      rfl, rfl⟩

/-! ## The parts of an id -/

namespace IdParts

theorem ne_hyphen_of_mem : ∀ family ∈ FAMILIES, ∀ c ∈ family, (c ≠ '-' : Bool) := by
  have hall : FAMILIES.all (fun family => family.all fun c => c ≠ '-') := by decide
  exact fun family hfamily => List.all_eq_true.1 (List.all_eq_true.1 hall family hfamily)

theorem suffixText_injective : Function.Injective suffixText := by
  intro a b h
  cases a <;> cases b <;> simp_all [suffixText]

/-- The front of an id: family, number, separator, number. -/
theorem front_inj {p q : IdParts} {separator : Char} {u v : List Char}
    (hseparator : separator.isDigit = false)
    (hu : ∀ c ∈ u.head?, c.isDigit = false) (hv : ∀ c ∈ v.head?, c.isDigit = false)
    (h : (CLAUDE ++ p.family ++ ['-']) ++ (p.major ++ (separator :: (p.minor ++ u))) =
      (CLAUDE ++ q.family ++ ['-']) ++ (q.major ++ (separator :: (q.minor ++ v)))) :
    p.family = q.family ∧ p.major = q.major ∧ p.minor = q.minor ∧ u = v := by
  simp only [List.append_assoc, List.append_cancel_left_eq, List.singleton_append] at h
  obtain ⟨hfamily, h⟩ := append_class_inj (ne_hyphen_of_mem _ p.family_mem)
    (ne_hyphen_of_mem _ q.family_mem) (by simp) (by simp) h
  obtain ⟨hmajor, h⟩ := append_class_inj p.major_digits q.major_digits (by simpa using hseparator)
    (by simpa using hseparator) (List.cons.inj h).2
  obtain ⟨hminor, h⟩ := append_class_inj p.minor_digits q.minor_digits hu hv (List.cons.inj h).2
  exact ⟨hfamily, hmajor, hminor, h⟩

theorem suffixText_head (suffix : Option (List Char)) (rest : List Char)
    (hrest : ∀ c ∈ rest.head?, c.isDigit = false) :
    ∀ c ∈ (suffixText suffix ++ rest).head?, c.isDigit = false := by
  cases suffix with
  | none => exact hrest
  | some cs => simp [suffixText]

theorem captures_of_dotted {p q : IdParts} (h : p.dotted = q.dotted) : p.captures = q.captures := by
  have hhead : ∀ suffix, ∀ c ∈ (suffixText suffix).head?, c.isDigit = false := fun suffix => by
    simpa using suffixText_head suffix [] (by simp)
  rw [dotted, dotted] at h
  obtain ⟨hfamily, hmajor, hminor, hsuffix⟩ := front_inj (by decide) (hhead _) (hhead _) h
  rw [captures, captures, hfamily, hmajor, hminor, suffixText_injective hsuffix]

theorem captures_of_dashed {p q : IdParts} (h : p.dashed = q.dashed) : p.captures = q.captures := by
  have hhead : ∀ suffix, ∀ c ∈ (suffixText suffix ++ '-' :: SENTINEL_DATE).head?,
      c.isDigit = false := fun suffix => suffixText_head suffix _ (by simp)
  rw [dashed, dashed] at h
  obtain ⟨hfamily, hmajor, hminor, hsuffix⟩ := front_inj (by decide) (hhead _) (hhead _) h
  rw [captures, captures, hfamily, hmajor, hminor,
    suffixText_injective (List.append_cancel_right hsuffix)]

theorem suffixPart_eq {p : IdParts} (h : p.suffix ≠ some []) :
    suffixPart p.suffix = suffixText p.suffix := by
  cases hsuffix : p.suffix with
  | none => rfl
  | some cs =>
    cases cs with
    | nil => exact absurd hsuffix h
    | cons c cs => rfl

end IdParts

theorem exec_dotted (p : IdParts) : FORWARD_RE.exec p.dotted = some p.captures := by
  refine (exec_eq_some_iff ?_).mpr ((forward_matches_iff _ _).mpr ⟨p, rfl, rfl⟩)
  intro c c' hc hc'
  obtain ⟨q, hq, rfl⟩ := (forward_matches_iff _ _).mp hc
  obtain ⟨q', hq', rfl⟩ := (forward_matches_iff _ _).mp hc'
  exact IdParts.captures_of_dotted (hq.symm.trans hq')

theorem exec_dashed (p : IdParts) : REVERSE_RE.exec p.dashed = some p.captures := by
  refine (exec_eq_some_iff ?_).mpr ((reverse_matches_iff _ _).mpr ⟨p, rfl, rfl⟩)
  intro c c' hc hc'
  obtain ⟨q, hq, rfl⟩ := (reverse_matches_iff _ _).mp hc
  obtain ⟨q', hq', rfl⟩ := (reverse_matches_iff _ _).mp hc'
  exact IdParts.captures_of_dashed (hq.symm.trans hq')

theorem forwardId_dotted {s : String} {p : IdParts} (hs : s.toList = p.dotted)
    (hsuffix : p.suffix ≠ some []) : forwardId s = String.ofList p.dashed := by
  rw [forwardId, hs, exec_dotted]
  simp only [IdParts.captures, p.suffixPart_eq hsuffix, IdParts.dashed]
  simp

theorem reverseId_dashed {s : String} {p : IdParts} (hs : s.toList = p.dashed)
    (hsuffix : p.suffix ≠ some []) : reverseId s = String.ofList p.dotted := by
  rw [reverseId, hs, exec_dashed]
  simp only [IdParts.captures, p.suffixPart_eq hsuffix, IdParts.dotted]
  simp

/-! ## Round trips -/

/-- An id that is not in the form for clients, and has no empty suffix. -/
def IsPlain (s : String) : Prop :=
  REVERSE_RE.test s.toList = false ∧ ∀ p : IdParts, s.toList = p.dotted → p.suffix ≠ some []

theorem isPlain_of_last {id : String} (hreverse : REVERSE_RE.test id.toList = false)
    (hlast : id.toList.getLast? ≠ some '-') : IsPlain id := by
  refine ⟨hreverse, fun p hid hsuffix => hlast ?_⟩
  rw [hid, IdParts.dotted, hsuffix, IdParts.suffixText]
  simp [List.getLast?_append, List.getLast?_cons]

theorem reverseId_forwardId {s : String} (h : IsPlain s) : reverseId (forwardId s) = s := by
  cases hexec : FORWARD_RE.exec s.toList with
  | none =>
    have hforward : forwardId s = s := by rw [forwardId, hexec]
    rw [hforward, reverseId, Option.not_isSome_iff_eq_none.mp (Bool.eq_false_iff.mp h.1)]
  | some c =>
    obtain ⟨p, hs, rfl⟩ := (forward_matches_iff _ _).mp (matches_of_exec hexec)
    have hsuffix := h.2 p hs
    rw [forwardId_dotted hs hsuffix, reverseId_dashed String.toList_ofList hsuffix, ← hs,
      String.ofList_toList]

/-- A plain id comes back as it went, and so no two of them become one. -/
theorem rewriting_roundTrips :
    (∀ s, IsPlain s → reverseId (forwardId s) = s) ∧
      ∀ s t, IsPlain s → IsPlain t → forwardId s = forwardId t → s = t := by
  refine ⟨fun s hs => reverseId_forwardId hs, fun s t hs ht h => ?_⟩
  rw [← reverseId_forwardId hs, h, reverseId_forwardId ht]

theorem rewriting_roundTrips_opus :
    reverseId (forwardId "claude-opus-4.7-high") = "claude-opus-4.7-high" :=
  rewriting_roundTrips.1 _ (isPlain_of_last (by decide +kernel) (by decide +kernel))

end Maximal.Models
