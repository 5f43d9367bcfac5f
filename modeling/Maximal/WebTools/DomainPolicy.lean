import Maximal.WebTools.UseBound

/-!
# Web tools: domain policies

A domain covers itself and what is under it. Names are the same without regard to case and to the
dot of the root, which the matcher of the program takes for a part of the name.

## Main definitions

- `Covers`, `Complies` — what a policy demands of a host
- `Misjudged` — a host that is allowed although the policy forbids it

## Main results

- `complies_iff_of_isHostAllowed`
- `callComplies_iff` — when a call fetches and returns nothing that the policy forbids
-/

namespace Maximal.WebTools

open Js

/-! ## Names -/

/-- The host part of an entry. -/
def listedHost (entry : String) : List Char :=
  (toLowerCase (String.ofList (entry.toList.takeWhile (· ≠ '/')))).toList

def isRooted (name : List Char) : Bool := name.getLast? = some '.'

def withoutRoot (name : List Char) : List Char :=
  if isRooted name then name.dropLast else name

def EqualOrUnder (host domain : List Char) : Prop := host = domain ∨ '.' :: domain <:+ host

instance (host domain : List Char) : Decidable (EqualOrUnder host domain) :=
  inferInstanceAs (Decidable (_ ∨ _))

/-- The host is equal to or under the domain of an entry. -/
def Covers (entry host : String) : Prop :=
  EqualOrUnder (withoutRoot (toLowerCase host).toList) (withoutRoot (listedHost entry))

instance (entry host : String) : Decidable (Covers entry host) :=
  inferInstanceAs (Decidable (EqualOrUnder _ _))

theorem hostCoveredBy_iff (host entry : String) :
    hostCoveredBy host entry ↔ EqualOrUnder (toLowerCase host).toList (listedHost entry) := by
  simp [hostCoveredBy, EqualOrUnder, listedHost, String.toList_inj]

theorem isRooted_iff (name : List Char) : isRooted name ↔ ∃ rest, name = rest ++ ['.'] := by
  rw [isRooted, decide_eq_true_eq, List.getLast?_eq_some_iff]

theorem withoutRoot_append (rest : List Char) : withoutRoot (rest ++ ['.']) = rest := by
  rw [withoutRoot, if_pos ((isRooted_iff _).mpr ⟨rest, rfl⟩), List.dropLast_concat]

theorem withoutRoot_of_not {name : List Char} (h : isRooted name = false) :
    withoutRoot name = name := by
  rw [withoutRoot, h, if_neg Bool.false_ne_true]

theorem suffix_concat_iff (c : Char) (xs ys : List Char) : xs ++ [c] <:+ ys ++ [c] ↔ xs <:+ ys := by
  constructor
  · rintro ⟨front, h⟩
    rw [← List.append_assoc] at h
    exact ⟨front, List.append_cancel_right h⟩
  · rintro ⟨front, rfl⟩
    exact ⟨front, by rw [List.append_assoc]⟩

/-- Names that are both rooted, or both not, are compared as they are written. -/
theorem equalOrUnder_withoutRoot {host domain : List Char} (h : isRooted host = isRooted domain) :
    EqualOrUnder (withoutRoot host) (withoutRoot domain) ↔ EqualOrUnder host domain := by
  cases hroot : isRooted host with
  | false => rw [withoutRoot_of_not hroot, withoutRoot_of_not (h ▸ hroot)]
  | true =>
    obtain ⟨h₀, rfl⟩ := (isRooted_iff host).mp hroot
    obtain ⟨d₀, rfl⟩ := (isRooted_iff domain).mp (h ▸ hroot)
    rw [withoutRoot_append, withoutRoot_append, EqualOrUnder, EqualOrUnder, ← List.cons_append,
      suffix_concat_iff, List.append_left_inj]

/-- Of a rooted and another name, only the empty domain covers the host as it is written. -/
theorem equalOrUnder_of_ne {host domain : List Char} (h : isRooted host ≠ isRooted domain)
    (hcovers : EqualOrUnder host domain) : isRooted host ∧ domain = [] := by
  obtain rfl | ⟨front, rfl⟩ := hcovers
  · exact absurd rfl h
  · cases domain with
    | nil => exact ⟨(isRooted_iff _).mpr ⟨front, rfl⟩, rfl⟩
    | cons c domain =>
      -- the last character of the domain is the last one of the host
      refine absurd ?_ h
      simp [isRooted, List.getLast?_append, List.getLast?_cons]

/-! ## Policies -/

/-- What a policy demands of a host. -/
def Complies (policy : DomainPolicy) (host : String) : Prop :=
  (∀ entry ∈ policy.blockedDomains.getD [], ¬ Covers entry host) ∧
    (policy.allowedDomains.getD [] ≠ [] → ∃ entry ∈ policy.allowedDomains.getD [], Covers entry host)

instance (policy : DomainPolicy) (host : String) : Decidable (Complies policy host) :=
  inferInstanceAs (Decidable (_ ∧ (_ → _)))

/-- The host and the domain of the entry are not both written with the dot of the root. -/
def RootDiffers (entry host : String) : Prop :=
  isRooted (toLowerCase host).toList ≠ isRooted (listedHost entry)

/-- A host that is let through: past a blocked domain that is written with another root, outside
an allow list that a block list hides, or by an entry without a host. -/
def Misjudged (policy : DomainPolicy) (host : String) : Prop :=
  isHostAllowed host policy ∧
    ((∃ entry ∈ policy.blockedDomains.getD [], Covers entry host ∧ RootDiffers entry host) ∨
      (∀ entry ∈ policy.allowedDomains.getD [], ¬ Covers entry host) ∧
        policy.allowedDomains.getD [] ≠ [] ∧
        (policy.blockedDomains.getD [] ≠ [] ∨
          ∃ entry ∈ policy.allowedDomains.getD [], listedHost entry = [] ∧ RootDiffers entry host))

theorem isNonEmptyList_iff (list : Option (List String)) :
    isNonEmptyList list ↔ list.getD [] ≠ [] := by
  cases list <;> simp [isNonEmptyList]

theorem isHostAllowed_blocked {policy : DomainPolicy} {host : String}
    (h : isHostAllowed host policy) :
    ∀ entry ∈ policy.blockedDomains.getD [], ¬ hostCoveredBy host entry := by
  intro entry hentry hfound
  have hlist : isNonEmptyList policy.blockedDomains :=
    (isNonEmptyList_iff _).mpr (List.ne_nil_of_mem hentry)
  rw [isHostAllowed, if_pos hlist, Bool.not_eq_true', List.any_eq_false] at h
  exact h entry hentry hfound

theorem isHostAllowed_allowed {policy : DomainPolicy} {host : String}
    (h : isHostAllowed host policy) (hblocked : policy.blockedDomains.getD [] = [])
    (hallowed : policy.allowedDomains.getD [] ≠ []) :
    ∃ entry ∈ policy.allowedDomains.getD [], hostCoveredBy host entry := by
  have hblock : ¬ isNonEmptyList policy.blockedDomains := by
    rw [isNonEmptyList_iff]
    exact not_not_intro hblocked
  rw [isHostAllowed, if_neg hblock, if_pos ((isNonEmptyList_iff _).mpr hallowed),
    List.any_eq_true] at h
  exact h

/-- A host that is let through complies with the policy unless it is misjudged. -/
theorem complies_iff_of_isHostAllowed {policy : DomainPolicy} {host : String}
    (h : isHostAllowed host policy) : Complies policy host ↔ ¬ Misjudged policy host := by
  constructor
  · rintro ⟨hblocked, hallowed⟩ ⟨-, ⟨entry, hentry, hcovers, -⟩ | ⟨houtside, hlist, -⟩⟩
    · exact hblocked entry hentry hcovers
    · obtain ⟨entry, hentry, hcovers⟩ := hallowed hlist
      exact houtside entry hentry hcovers
  · intro hjudged
    refine ⟨fun entry hentry hcovers => hjudged ⟨h, .inl ⟨entry, hentry, hcovers, ?_⟩⟩,
      fun hlist => by_contra fun houtside => hjudged ⟨h, .inr ⟨?_, hlist, ?_⟩⟩⟩
    · -- otherwise the matcher would have found the entry
      intro hroot
      have hfound : hostCoveredBy host entry :=
        (hostCoveredBy_iff host entry).mpr ((equalOrUnder_withoutRoot hroot).mp hcovers)
      exact isHostAllowed_blocked h entry hentry hfound
    · exact fun entry hentry hcovers => houtside ⟨entry, hentry, hcovers⟩
    · by_cases hblock : policy.blockedDomains.getD [] = []
      · obtain ⟨entry, hentry, hfound⟩ := isHostAllowed_allowed h hblock hlist
        refine .inr ⟨entry, hentry, ?_⟩
        rw [hostCoveredBy_iff] at hfound
        have hroot : RootDiffers entry host := fun hroot =>
          houtside ⟨entry, hentry, (equalOrUnder_withoutRoot hroot).mpr hfound⟩
        exact ⟨(equalOrUnder_of_ne hroot hfound).2, hroot⟩
      · exact .inl hblock

/-! ## Calls -/

section

variable (platform : Platform)

/-- The host of an address complies with a policy, if there is anything to comply with. -/
def UrlComplies (policy : DomainPolicy) (url : String) : Prop :=
  policy.allowedDomains.getD [] = [] ∧ policy.blockedDomains.getD [] = [] ∨
    ∃ parsed, platform.parseUrl url = some parsed ∧ Complies policy parsed.hostname

/-- The host of an address is let through although the policy forbids it. -/
def UrlMisjudged (policy : DomainPolicy) (url : String) : Prop :=
  ∃ parsed, platform.parseUrl url = some parsed ∧ Misjudged policy parsed.hostname

/-- What a call fetches and the hits it returns comply with the declaration of its tool. -/
def CallComplies (x : Execution) (c : ToolCall) : Prop :=
  ∀ decl, x.state.active c.name = some decl →
    (∀ url, (executeToolUse platform c.executor c.name c.input x).2.calls =
        x.calls ++ [.fetch url] → UrlComplies platform decl url) ∧
    ∀ query items, (executeToolUse platform c.executor c.name c.input x).1 =
        .searched query items → ∀ hit ∈ items, UrlComplies platform decl hit.url

/-- The addresses of a call: the one that may be fetched, or the ones of the hits that a search
that may be made is answered with. -/
def addresses (state : RequestState) (c : ToolCall) : List String :=
  match c.name with
  | .webFetch =>
    match checkFetchPolicy platform state c.input with
    | .error _ => []
    | .ok url => [url]
  | .webSearch =>
    match checkSearchPolicy state c.input, c.searchAnswer with
    | .ok _, .ok items => items.map (·.url)
    | _, _ => []

variable {platform}

theorem not_misjudged_of_no_lists {policy : DomainPolicy}
    (hlists : policy.allowedDomains.getD [] = [] ∧ policy.blockedDomains.getD [] = [])
    (host : String) : ¬ Misjudged policy host := by
  rintro ⟨-, ⟨entry, hentry, -⟩ | ⟨-, hlist, -⟩⟩
  · rw [hlists.2] at hentry
    exact List.not_mem_nil hentry
  · exact hlist hlists.1

/-- An address that is let through complies with the policy unless it is misjudged. -/
theorem urlComplies_iff {policy : DomainPolicy} {url : String} {parsed : Url}
    (hparse : platform.parseUrl url = some parsed) (h : isHostAllowed parsed.hostname policy) :
    UrlComplies platform policy url ↔ ¬ UrlMisjudged platform policy url := by
  have hmisjudged : UrlMisjudged platform policy url ↔ Misjudged policy parsed.hostname := by
    simp [UrlMisjudged, hparse]
  rw [hmisjudged, UrlComplies, ← complies_iff_of_isHostAllowed h]
  constructor
  · rintro (hlists | ⟨parsed', hparse', hcomplies⟩)
    · exact (complies_iff_of_isHostAllowed h).mpr (not_misjudged_of_no_lists hlists _)
    · obtain rfl : parsed = parsed' := Option.some.inj (hparse.symm.trans hparse')
      exact hcomplies
  · exact fun hcomplies => .inr ⟨parsed, hparse, hcomplies⟩

theorem parseFetchUrl_ok {input : Json} {url : String} {parsed : Url}
    (h : parseFetchUrl platform input = .ok (url, parsed)) :
    platform.parseUrl url = some parsed := by
  rw [parseFetchUrl] at h
  cases hinput : inputText input "url" with
  | none => simp [hinput] at h
  | some found =>
    simp only [hinput] at h
    split_ifs at h with hlength
    cases hparse : platform.parseUrl found with
    | none => simp [hparse] at h
    | some parsed' =>
      simp only [hparse] at h
      split_ifs at h with hprotocol
      cases h
      exact hparse

/-- An address that may be fetched is one whose host the declaration allows. -/
theorem checkFetchPolicy_ok {state : RequestState} {input : Json} {url : String}
    (h : checkFetchPolicy platform state input = .ok url) :
    ∃ decl parsed, state.fetch = some decl ∧ platform.parseUrl url = some parsed ∧
      isHostAllowed parsed.hostname decl := by
  rw [checkFetchPolicy] at h
  cases hdecl : state.fetch with
  | none => simp [hdecl] at h
  | some decl =>
    simp only [hdecl] at h
    cases hparse : parseFetchUrl platform input with
    | error code => simp [hparse, bind, Except.bind] at h
    | ok found =>
      simp only [hparse, bind, Except.bind] at h
      split_ifs at h with huses hhost
      cases h
      exact ⟨decl, found.2, rfl, parseFetchUrl_ok hparse, by simpa using hhost⟩

/-- The hits that are returned comply exactly when none of the answer is misjudged. -/
theorem allowedHits_comply_iff (decl : DomainPolicy) (items : List SearchHit) :
    (∀ hit ∈ allowedHits platform (some decl) items, UrlComplies platform decl hit.url) ↔
      ∀ hit ∈ items, ¬ UrlMisjudged platform decl hit.url := by
  by_cases hlists : decl.allowedDomains.getD [] = [] ∧ decl.blockedDomains.getD [] = []
  · constructor
    · rintro - hit - ⟨parsed, -, hmisjudged⟩
      exact not_misjudged_of_no_lists hlists _ hmisjudged
    · exact fun _ hit _ => .inl hlists
  · have hfilter : isNonEmptyList decl.allowedDomains || isNonEmptyList decl.blockedDomains := by
      rw [Bool.or_eq_true, isNonEmptyList_iff, isNonEmptyList_iff]
      tauto
    simp only [allowedHits, if_pos hfilter, List.mem_filter, hostAllowedForHit, and_imp]
    apply forall₂_congr
    intro hit _
    cases hparse : platform.parseUrl hit.url with
    | none =>
      -- dropped, since its host cannot be read
      simp [UrlMisjudged, hparse]
    | some parsed =>
      by_cases hallowed : isHostAllowed parsed.hostname decl
      · simp [hallowed, urlComplies_iff hparse hallowed]
      · simp [hallowed, UrlMisjudged, hparse, Misjudged]

/-- Nothing that the declaration forbids is fetched or returned exactly when no host is
misjudged. -/
theorem callComplies_iff (x : Execution) (c : ToolCall) :
    CallComplies platform x c ↔
      ∀ decl, x.state.active c.name = some decl →
        ∀ url ∈ addresses platform x.state c, ¬ UrlMisjudged platform decl url := by
  apply forall₂_congr
  intro decl hdecl
  obtain ⟨name, input, fetchAnswer, searchAnswer⟩ := c
  cases name with
  | webFetch =>
    simp only [executeToolUse, addresses, ToolCall.executor]
    cases hcheck : checkFetchPolicy platform x.state input with
    | error code => simp
    | ok url =>
      obtain ⟨decl', parsed, hdecl', hparse, hallowed⟩ := checkFetchPolicy_ok hcheck
      obtain rfl : decl = decl' := Option.some.inj (hdecl.symm.trans hdecl')
      cases fetchAnswer <;> simp [urlComplies_iff hparse hallowed]
  | webSearch =>
    have hsearch : x.state.search = some decl := hdecl
    simp only [executeToolUse, addresses, ToolCall.executor]
    cases hcheck : checkSearchPolicy x.state input with
    | error code => simp
    | ok query =>
      cases searchAnswer with
      | failed code => simp
      | ok items => simp [hsearch, allowedHits_comply_iff]

/-- A platform that knows two addresses. -/
def twoHosts : Platform where
  parseUrl url :=
    if url = "https://example.com./" then some ⟨"https:", "example.com."⟩
    else if url = "https://other.net/" then some ⟨"https:", "other.net"⟩
    else none
  parse _ := none
  stringifyItems _ := ""
  encryptedContent _ := ""
  now := ""

def fetchOf (url : String) : ToolCall :=
  ⟨.webFetch, .object [("url", .string url)], .ok "page" none, .failed .unavailable⟩

/-- A fetch under a blocked domain that is written with the dot of the root, and one outside the
allow list of a declaration that has both lists. -/
theorem not_callComplies :
    ¬ CallComplies twoHosts
        (startExecution [⟨.webFetch, { blockedDomains := some ["example.com"] }⟩])
        (fetchOf "https://example.com./") ∧
      ¬ CallComplies twoHosts
        (startExecution [⟨.webFetch,
          { allowedDomains := some ["example.com"], blockedDomains := some ["evil.org"] }⟩])
        (fetchOf "https://other.net/") := by
  constructor
  · intro h
    obtain ⟨-, hlist⟩ | ⟨parsed, hparse, hblocked, -⟩ :=
      (h _ rfl).1 "https://example.com./" (by decide +kernel)
    · exact absurd hlist (by decide)
    · cases hparse
      exact hblocked "example.com" (by decide) (by decide)
  · intro h
    obtain ⟨hlists, -⟩ | ⟨parsed, hparse, -, hallowed⟩ :=
      (h _ rfl).1 "https://other.net/" (by decide +kernel)
    · exact absurd hlists (by decide)
    · cases hparse
      exact absurd (hallowed (by decide)) (by decide)

end

end Maximal.WebTools
