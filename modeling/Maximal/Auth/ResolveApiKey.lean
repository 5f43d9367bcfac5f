import Maximal.Auth.RequestAuth
import Maximal.Config.ConfigSchema
import Mathlib.Data.List.Nodup

/-!
# The key the helper hands out

`resolveApiKey` gives a client the key of the entry that matches its label best, or the default key.
The gate takes that key, and counts its requests for the entry if the entry's key has no white space
around it.

## Main definitions

- `matchScore`, `findEntry`, `resolveApiKey`
- `BestMatch` — the first of the enabled entries that match a label best
- `HelperAgrees` — the gate takes the key and counts it for the entry

## Main results

- `findEntry_eq_some_iff`
- `helperAgrees_iff`, `helperAgrees_of_pattern`
-/

namespace Maximal.Auth

open Js

/-! ## Matching a label -/

def isLabelSeparator (c : Char) : Bool := isWhite c || c = '_' || c = '-'

/-- `replaceAll(/[\s_-]+/gu, " ")` -/
def collapseSeparators : List Char → List Char
  | [] => []
  | c :: cs =>
    if isLabelSeparator c then
      -- a run becomes one blank, at its last character
      if (cs.head?.map isLabelSeparator).getD false then collapseSeparators cs
      else ' ' :: collapseSeparators cs
    else c :: collapseSeparators cs

def isEnabledEntry (entry : ApiKeyEntry) : Bool := entry.enabled && trim entry.key ≠ ""

/-- A score of zero is no match. -/
def keepBetter (best : Option (ApiKeyEntry × ℕ)) (entry : ApiKeyEntry) (score : ℕ) :
    Option (ApiKeyEntry × ℕ) :=
  if score = 0 then best
  else
    match best with
    | none => some (entry, score)
    | some (_, bestScore) => if bestScore < score then some (entry, score) else best

section

-- `String.prototype.toLowerCase`, of any characters
variable (toLowerCase : String → String)

def normalizeLabel (value : String) : String :=
  trim (String.ofList (collapseSeparators (toLowerCase (trim value)).toList))

def matchScore (value target : String) : ℕ :=
  let normalized := normalizeLabel toLowerCase value
  let t := normalizeLabel toLowerCase target
  if normalized = "" ∨ t = "" then 0
  else if normalized = t then 100
  else if startsWith normalized (t ++ " ") then 90
  else if startsWith (t ++ " ") (normalized ++ " ") then 80
  else 0

def entryScore (label : String) (entry : ApiKeyEntry) : ℕ :=
  max (matchScore toLowerCase entry.id label) (matchScore toLowerCase entry.label label)

/-- One step of the loop over the entries. -/
def pickBest (label : String) (best : Option (ApiKeyEntry × ℕ)) (entry : ApiKeyEntry) :
    Option (ApiKeyEntry × ℕ) :=
  if !isEnabledEntry entry then best
  else keepBetter best entry (entryScore toLowerCase label entry)

def findEntry (entries : List ApiKeyEntry) (label : String) : Option ApiKeyEntry :=
  (entries.foldl (pickBest toLowerCase label) none).map Prod.fst

def getDefaultEndpointApiKey (config : AppConfig) : Option String :=
  match normalizeApiKeys config.apiKeys with
  | key :: _ => some key
  -- the keys of entries are handed out trimmed, as the allow list holds them
  | [] => (config.entries.find? isEnabledEntry).map fun e => trim e.key

inductive KeySource where
  | app
  | default
  deriving DecidableEq

inductive ApiKeyHelperResult where
  | ok (key : String) (source : KeySource)
  | error (error : String)
  deriving DecidableEq

def resolveApiKey (label : Option String) (config : AppConfig) : ApiKeyHelperResult :=
  let wanted := (label.map trim).filter (· ≠ "")
  match wanted.bind (findEntry toLowerCase config.entries) with
  | some appEntry => .ok (trim appEntry.key) .app
  | none =>
    match getDefaultEndpointApiKey config with
    | some defaultKey => .ok defaultKey .default
    | none =>
      .error (match wanted with
        | some wanted => "no API key found for \"" ++ wanted ++
          "\" and no default endpoint API key is configured"
        | none => "no default endpoint API key is configured")

/-- An enabled entry that matches the label, better than those before it and no worse than those
behind it. -/
def BestMatch (entries : List ApiKeyEntry) (label : String) (entry : ApiKeyEntry) : Prop :=
  ∃ before after, entries = before ++ entry :: after ∧ isEnabledEntry entry = true ∧
    0 < entryScore toLowerCase label entry ∧
    (∀ e ∈ before, isEnabledEntry e = true →
      entryScore toLowerCase label e < entryScore toLowerCase label entry) ∧
    ∀ e ∈ after, isEnabledEntry e = true →
      entryScore toLowerCase label e ≤ entryScore toLowerCase label entry

variable {toLowerCase} {entries : List ApiKeyEntry} {label : String} {entry : ApiKeyEntry}

/-- What is picked of the entries so far. -/
inductive Picked (toLowerCase : String → String) (entries : List ApiKeyEntry) (label : String) :
    Option (ApiKeyEntry × ℕ) → Prop
  | none (h : ∀ e ∈ entries, isEnabledEntry e = true → entryScore toLowerCase label e = 0) :
    Picked toLowerCase entries label none
  | some {entry : ApiKeyEntry} {score : ℕ} (h : BestMatch toLowerCase entries label entry)
    (hscore : score = entryScore toLowerCase label entry) :
    Picked toLowerCase entries label (some (entry, score))

theorem BestMatch.append_worse {e : ApiKeyEntry} (h : BestMatch toLowerCase entries label entry)
    (he : isEnabledEntry e = true →
      entryScore toLowerCase label e ≤ entryScore toLowerCase label entry) :
    BestMatch toLowerCase (entries ++ [e]) label entry := by
  obtain ⟨before, after, rfl, henabled, hpos, hbefore, hafter⟩ := h
  refine ⟨before, after ++ [e], by simp, henabled, hpos, hbefore, fun e' he' => ?_⟩
  obtain he' | he' := List.mem_append.1 he'
  · exact hafter e' he'
  · rw [List.mem_singleton.1 he']
    exact he

theorem BestMatch.le {e : ApiKeyEntry} (h : BestMatch toLowerCase entries label entry)
    (he : e ∈ entries) (henabled : isEnabledEntry e = true) :
    entryScore toLowerCase label e ≤ entryScore toLowerCase label entry := by
  obtain ⟨before, after, rfl, -, -, hbefore, hafter⟩ := h
  obtain he | he := List.mem_append.1 he
  · exact (hbefore e he henabled).le
  · obtain rfl | he := List.mem_cons.1 he
    · exact le_rfl
    · exact hafter e he henabled

/-- An entry that matches is compared with the best one so far. -/
theorem Picked.keepBetter {best : Option (ApiKeyEntry × ℕ)} {e : ApiKeyEntry} {score : ℕ}
    (h : Picked toLowerCase entries label best) (henabled : isEnabledEntry e = true)
    (hscore : score = entryScore toLowerCase label e) :
    Picked toLowerCase (entries ++ [e]) label (Auth.keepBetter best e score) := by
  unfold Auth.keepBetter
  by_cases hzero : score = 0
  · rw [if_pos hzero]
    cases h with
    | none h =>
      refine .none fun e' he' henabled' => ?_
      obtain he' | he' := List.mem_append.1 he'
      · exact h e' he' henabled'
      · rw [List.mem_singleton.1 he', ← hscore, hzero]
    | some h hold =>
      refine .some (h.append_worse fun _ => ?_) hold
      rw [← hscore, hzero]
      exact Nat.zero_le _
  · rw [if_neg hzero]
    -- the new entry wins only against smaller scores: of equal ones the first stays
    have hpos : 0 < score := Nat.pos_of_ne_zero hzero
    have hbest : (∀ e' ∈ entries, isEnabledEntry e' = true →
        entryScore toLowerCase label e' < score) → BestMatch toLowerCase (entries ++ [e]) label e :=
      fun hlt => ⟨entries, [], rfl, henabled, hscore ▸ hpos, hscore ▸ hlt,
        fun _ he' => absurd he' List.not_mem_nil⟩
    cases h with
    | none h =>
      exact .some (hbest fun e' he' henabled' => (h e' he' henabled').trans_lt hpos) hscore
    | @some old oldScore h hold =>
      dsimp only
      by_cases hlt : oldScore < score
      · rw [if_pos hlt]
        exact .some (hbest fun e' he' henabled' =>
          (h.le he' henabled').trans_lt (hold ▸ hlt)) hscore
      · rw [if_neg hlt]
        refine .some (h.append_worse fun _ => ?_) hold
        rw [← hscore, ← hold]
        exact not_lt.1 hlt

/-- One entry more. -/
theorem Picked.pickBest {best : Option (ApiKeyEntry × ℕ)}
    (h : Picked toLowerCase entries label best) (e : ApiKeyEntry) :
    Picked toLowerCase (entries ++ [e]) label (Auth.pickBest toLowerCase label best e) := by
  rw [Auth.pickBest]
  cases henabled : isEnabledEntry e with
  | false =>
    have hnot : isEnabledEntry e ≠ true := fun he => Bool.false_ne_true (henabled.symm.trans he)
    rw [Bool.not_false, if_pos rfl]
    cases h with
    | none h =>
      refine .none fun e' he' henabled' => ?_
      obtain he' | he' := List.mem_append.1 he'
      · exact h e' he' henabled'
      · exact absurd henabled' (List.mem_singleton.1 he' ▸ hnot)
    | some h hscore => exact .some (h.append_worse fun he => absurd he hnot) hscore
  | true =>
    rw [Bool.not_true, if_neg Bool.false_ne_true]
    exact h.keepBetter henabled rfl

theorem picked_foldl (toLowerCase : String → String) (label : String)
    (entries : List ApiKeyEntry) :
    Picked toLowerCase entries label (entries.foldl (pickBest toLowerCase label) none) := by
  -- the fold takes the entries from the left, so the last one is peeled off
  induction entries using List.reverseRecOn with
  | nil => exact .none fun _ he => absurd he List.not_mem_nil
  | append_singleton entries e ih =>
    rw [List.foldl_append]
    exact ih.pickBest e

theorem BestMatch.mem (h : BestMatch toLowerCase entries label entry) :
    entry ∈ entries ∧ isEnabledEntry entry = true := by
  obtain ⟨before, after, rfl, henabled, -⟩ := h
  exact ⟨List.mem_append_right _ List.mem_cons_self, henabled⟩

/-- Of two places in a list, one comes first. -/
theorem eq_or_mem_before {α : Type} {a b : α} {before after before' after' : List α}
    (h : before ++ a :: after = before' ++ b :: after') : a = b ∨ a ∈ before' ∨ b ∈ before := by
  obtain ⟨mid, rfl, hrest⟩ | ⟨mid, rfl, hrest⟩ := List.append_eq_append_iff.1 h
  · cases mid with
    | nil => exact .inl (List.cons.inj hrest).1
    | cons c mid =>
      rw [(List.cons.inj hrest).1]
      exact .inr (.inl (List.mem_append_right _ List.mem_cons_self))
  · cases mid with
    | nil => exact .inl (List.cons.inj hrest).1.symm
    | cons c mid =>
      rw [(List.cons.inj hrest).1]
      exact .inr (.inr (List.mem_append_right _ List.mem_cons_self))

theorem BestMatch.unique {entry' : ApiKeyEntry} (h : BestMatch toLowerCase entries label entry)
    (h' : BestMatch toLowerCase entries label entry') : entry = entry' := by
  have hle := h'.le h.mem.1 h.mem.2
  have hle' := h.le h'.mem.1 h'.mem.2
  obtain ⟨before', after', hentries', henabled', -, hbefore', -⟩ := h'
  obtain ⟨before, after, hentries, henabled, -, hbefore, -⟩ := h
  obtain heq | hmem | hmem := eq_or_mem_before (hentries.symm.trans hentries')
  · exact heq
  · exact absurd (hbefore' entry hmem henabled) hle'.not_gt
  · exact absurd (hbefore entry' hmem henabled') hle.not_gt

theorem findEntry_eq_some_iff :
    findEntry toLowerCase entries label = some entry ↔
      BestMatch toLowerCase entries label entry := by
  have hpicked := picked_foldl toLowerCase label entries
  rw [findEntry]
  generalize entries.foldl (pickBest toLowerCase label) none = best at hpicked
  cases hpicked with
  | none h =>
    refine iff_of_false nofun ?_
    rintro ⟨before, after, rfl, henabled, hpos, -⟩
    rw [h entry (List.mem_append_right _ List.mem_cons_self) henabled] at hpos
    exact absurd hpos (Nat.lt_irrefl 0)
  | some h _ =>
    rw [Option.map_some, Option.some.injEq]
    exact ⟨fun heq => heq ▸ h, fun hentry => h.unique hentry⟩

/-! ## The key and the gate -/

/-- The gate takes the key that is handed out, and counts it for the entry it comes from. -/
def HelperAgrees (toLowerCase : String → String) (config : AppConfig) (label : Option String) :
    Prop :=
  ∀ key source, resolveApiKey toLowerCase label config = .ok key source →
    key ∈ getConfiguredApiKeys config ∧
    apiKeyAllowed (getConfiguredApiKeys config) key = true ∧
    (source = .app → ∃ wanted entry, label.map trim = some wanted ∧
      BestMatch toLowerCase config.entries wanted entry ∧
      findApiKeyEntry config key = some ⟨entry.id, entry.label⟩)

variable {config : AppConfig}

theorem isEntryKey_of_enabled (he : entry ∈ config.entries) (h : isEnabledEntry entry = true) :
    trim entry.key ≠ "" ∧ IsEntryKey config (trim entry.key) := by
  rw [isEnabledEntry, Bool.and_eq_true, decide_eq_true_iff] at h
  exact ⟨h.2, entry, he, h.1, rfl⟩

theorem defaultKey_configured {key : String} (h : getDefaultEndpointApiKey config = some key) :
    key ≠ "" ∧ (IsLegacyKey config key ∨ IsEntryKey config key) := by
  rw [getDefaultEndpointApiKey] at h
  split at h
  · next legacy rest hkeys =>
    obtain rfl := Option.some.inj h
    have hmem : legacy ∈ normalizeApiKeys config.apiKeys := hkeys ▸ List.mem_cons_self
    rw [mem_normalizeApiKeys] at hmem
    exact ⟨hmem.1, .inl hmem.2⟩
  · obtain ⟨e, hfind, rfl⟩ := Option.map_eq_some_iff.1 h
    obtain ⟨hne, hkey⟩ :=
      isEntryKey_of_enabled (List.mem_of_find?_eq_some hfind) (List.find?_some hfind)
    exact ⟨hne, .inr hkey⟩

/-- A configured key is on the allow list, and taken. -/
theorem configured_allowed {key : String}
    (h : key ≠ "" ∧ (IsLegacyKey config key ∨ IsEntryKey config key)) :
    key ∈ getConfiguredApiKeys config ∧
      apiKeyAllowed (getConfiguredApiKeys config) key = true :=
  ⟨(mem_getConfiguredApiKeys config key).2 h, (apiKeyAllowed_iff config key).2 h⟩

/-- Distinct keys: an enabled entry with the trimmed key of another is that entry. -/
theorem entry_eq_of_trim {entry' : ApiKeyEntry}
    (hdistinct : ((config.entries.filter (·.enabled)).map fun e => trim e.key).Nodup)
    (he : entry ∈ config.entries) (henabled : entry.enabled = true)
    (he' : entry' ∈ config.entries) (henabled' : entry'.enabled = true)
    (hkey : trim entry.key = trim entry'.key) : entry = entry' :=
  List.inj_on_of_nodup_map hdistinct (List.mem_filter.2 ⟨he, henabled⟩)
    (List.mem_filter.2 ⟨he', henabled'⟩) hkey

/-- Requests with the trimmed key of an entry count for it exactly when the key has no white space
around it. -/
theorem findApiKeyEntry_trim
    (hdistinct : ((config.entries.filter (·.enabled)).map fun e => trim e.key).Nodup)
    (he : entry ∈ config.entries) (h : isEnabledEntry entry = true) :
    findApiKeyEntry config (trim entry.key) = some ⟨entry.id, entry.label⟩ ↔
      trim entry.key = entry.key := by
  rw [isEnabledEntry, Bool.and_eq_true, decide_eq_true_iff] at h
  rw [findApiKeyEntry, if_neg h.2]
  -- whatever is found has the trimmed key, and so it is the entry
  have hfound : ∀ e, config.entries.find? (fun e => e.enabled && e.key = trim entry.key) = some e →
      e = entry ∧ e.key = trim entry.key := by
    intro e hfind
    have hp := List.find?_some hfind
    rw [Bool.and_eq_true, decide_eq_true_iff] at hp
    refine ⟨?_, hp.2⟩
    refine entry_eq_of_trim hdistinct (List.mem_of_find?_eq_some hfind) hp.1 he h.1 ?_
    rw [hp.2, trim_trim]
  constructor
  · intro hsome
    obtain ⟨e, hfind, -⟩ := Option.map_eq_some_iff.1 hsome
    obtain ⟨rfl, hkey⟩ := hfound e hfind
    exact hkey.symm
  · intro htrim
    cases hfind : config.entries.find? fun e => e.enabled && e.key = trim entry.key with
    | none =>
      have hnot := List.find?_eq_none.1 hfind entry he
      rw [htrim, h.1] at hnot
      exact absurd (by simp) hnot
    | some e =>
      obtain ⟨rfl, -⟩ := hfound e hfind
      rfl

/-- The gate takes every key that is handed out, and counts it for the entry that matches the label
best if and only if that entry's key has no white space around it. -/
theorem helperAgrees_iff (toLowerCase : String → String) (label : Option String)
    (hdistinct : ((config.entries.filter (·.enabled)).map fun e => trim e.key).Nodup) :
    HelperAgrees toLowerCase config label ↔
      ∀ wanted entry, label.map trim = some wanted → wanted ≠ "" →
        BestMatch toLowerCase config.entries wanted entry → trim entry.key = entry.key := by
  constructor
  · intro hagrees wanted entry hwanted hne hbest
    have hresolve : resolveApiKey toLowerCase label config = .ok (trim entry.key) .app := by
      rw [resolveApiKey, hwanted, Option.filter_some, if_pos (decide_eq_true hne)]
      dsimp only [Option.bind_some]
      rw [findEntry_eq_some_iff.2 hbest]
    obtain ⟨-, -, happ⟩ := hagrees _ _ hresolve
    obtain ⟨wanted', entry', hwanted', hbest', hfind⟩ := happ rfl
    obtain rfl : wanted = wanted' := Option.some.inj (hwanted.symm.trans hwanted')
    obtain rfl := hbest.unique hbest'
    exact (findApiKeyEntry_trim hdistinct hbest.mem.1 hbest.mem.2).1 hfind
  · intro hcondition key source hresolve
    rw [resolveApiKey] at hresolve
    split at hresolve
    · next appEntry hentry =>
      obtain ⟨wanted, hwanted, hfind⟩ := Option.bind_eq_some_iff.1 hentry
      rw [Option.filter_eq_some_iff, decide_eq_true_iff] at hwanted
      have hbest := findEntry_eq_some_iff.1 hfind
      cases hresolve
      obtain ⟨hne, hkey⟩ := isEntryKey_of_enabled hbest.mem.1 hbest.mem.2
      obtain ⟨hmem, hallowed⟩ := configured_allowed ⟨hne, .inr hkey⟩
      refine ⟨hmem, hallowed, fun _ => ⟨wanted, appEntry, hwanted.1, hbest, ?_⟩⟩
      exact (findApiKeyEntry_trim hdistinct hbest.mem.1 hbest.mem.2).2
        (hcondition wanted appEntry hwanted.1 hwanted.2 hbest)
    · split at hresolve
      · next defaultKey hdefault =>
        cases hresolve
        obtain ⟨hmem, hallowed⟩ := configured_allowed (defaultKey_configured hdefault)
        exact ⟨hmem, hallowed, nofun⟩
      · cases hresolve

theorem isWhite_of_visible {c : Char} (h : 0x21 ≤ c.toNat) (h' : c.toNat ≤ 0x7E) :
    isWhite c = false := by
  rw [isWhite, Bool.or_eq_false_iff]
  refine ⟨decide_eq_false fun hmem => ?_, ?_⟩
  · simp only [List.mem_cons, List.not_mem_nil, or_false] at hmem
    omega
  · exact Bool.and_eq_false_iff.2 (.inl (decide_eq_false (by omega)))

theorem visible_of_isAlphanum {c : Char} (h : c.isAlphanum = true) :
    0x21 ≤ c.toNat ∧ c.toNat ≤ 0x7E := by
  obtain halpha | hdigit := Bool.or_eq_true_iff.1 h
  · obtain hupper | hlower := Bool.or_eq_true_iff.1 halpha
    · have hrange : 65 ≤ c.toNat ∧ c.toNat ≤ 90 := of_decide_eq_true hupper
      omega
    · have hbounds : 'a'.val ≤ c.val ∧ c.val ≤ 'z'.val :=
        (Bool.and_eq_true_iff.1 hlower).imp of_decide_eq_true of_decide_eq_true
      have hrange : 97 ≤ c.toNat ∧ c.toNat ≤ 122 := hbounds
      omega
  · have hrange : 48 ≤ c.toNat ∧ c.toNat ≤ 57 := Char.isDigit_iff_toNat.1 hdigit
    omega

/-- No character of a key that the schema takes is white space. -/
theorem trim_of_pattern {key : String} (h : Config.API_KEY_VALUE_PATTERN key = true) :
    trim key = key := by
  refine trim_of_forall fun c hc => ?_
  rw [Config.API_KEY_VALUE_PATTERN, Bool.or_eq_true] at h
  obtain h | h := h
  · rw [of_decide_eq_true h, List.mem_singleton] at hc
    rw [hc]
    exact isWhite_of_visible (by decide) (by decide)
  · rw [Bool.and_eq_true, Bool.and_eq_true, List.all_eq_true] at h
    have hword := h.1.1 c hc
    rw [Config.isWord, Bool.or_eq_true, Bool.or_eq_true] at hword
    obtain (hword | hword) | hdash := hword
    · exact isWhite_of_visible (visible_of_isAlphanum hword).1 (visible_of_isAlphanum hword).2
    · rw [of_decide_eq_true hword]
      exact isWhite_of_visible (by decide) (by decide)
    · rw [of_decide_eq_true hdash]
      exact isWhite_of_visible (by decide) (by decide)

/-- What the schema takes is handed out and counted alike. -/
theorem helperAgrees_of_pattern (toLowerCase : String → String) (label : Option String)
    (hdistinct : ((config.entries.filter (·.enabled)).map fun e => trim e.key).Nodup)
    (hpattern : ∀ e ∈ config.entries, Config.API_KEY_VALUE_PATTERN e.key = true) :
    HelperAgrees toLowerCase config label :=
  (helperAgrees_iff toLowerCase label hdistinct).2 fun _ entry _ _ hbest =>
    trim_of_pattern (hpattern entry hbest.mem.1)

/-- A configuration of one entry. -/
def oneEntry (key : String) : AppConfig where
  auth := some
    { apiKeyEntries := some [⟨"claude-code", "Claude Code", key, true⟩], enforce := some true }

theorem helperAgrees_oneEntry :
    HelperAgrees Js.toLowerCase (oneEntry "key-1234") (some "Claude Code") := by
  refine helperAgrees_of_pattern Js.toLowerCase (some "Claude Code") (by decide +kernel) ?_
  intro entry hentry
  rw [List.mem_singleton.1 hentry]
  decide +kernel

end

end Maximal.Auth
