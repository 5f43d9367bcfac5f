import Maximal.Auth.ApiKeyHelper
import Mathlib.Data.List.TakeWhile

/-!
# The command that was written is recognised

`apiKeyHelperCommand` quotes the paths and not the label. What comes back as the last token is the
label if the label is one word.

## Main definitions

- `matchesOf` — the tokens of a text, with their quotes
- `IsOneWord` — a text that comes back as one token
- `IsOwnBinary` — a binary of the proxy, or a runtime that runs it

## Main results

- `tokenizeCommand_apiKeyHelperCommand`
- `isOwnedApiKeyHelper_iff` — what is recognised
- `ownCommand_recognised_iff`
-/

namespace Maximal.Auth

open Js

/-! ## Tokens, one after the other -/

/-- The matches of a whole text. -/
def matchesOf (cs : List Char) : List (List Char) := matchTokens cs.length cs

theorem matchTokens_nil (fuel : ℕ) : matchTokens fuel [] = [] := by
  cases fuel <;> rfl

/-- What comes behind the character is no longer than the text behind it. -/
theorem length_behind_quote (cs : List Char) :
    ((cs.dropWhile fun d => !isQuote d).drop 1).length ≤ cs.length :=
  ((List.drop_sublist _ _).trans (List.dropWhile_sublist _)).length_le

theorem length_behind_word {c : Char} (hc : isWhite c = false) (cs : List Char) :
    ((c :: cs).dropWhile fun d => !isWhite d).length ≤ cs.length := by
  rw [List.dropWhile_cons_of_pos (by rw [hc]; rfl)]
  exact (List.dropWhile_sublist _).length_le

/-- Fuel for every character is enough. -/
theorem matchTokens_congr (n m : ℕ) (cs : List Char) (hn : cs.length ≤ n) (hm : cs.length ≤ m) :
    matchTokens n cs = matchTokens m cs := by
  induction n generalizing m cs with
  | zero =>
    rw [List.length_eq_zero_iff.1 (Nat.le_zero.1 hn), matchTokens_nil, matchTokens_nil]
  | succ n ih =>
    cases cs with
    | nil => rw [matchTokens_nil, matchTokens_nil]
    | cons c cs =>
      obtain ⟨m, rfl⟩ : ∃ k, m = k + 1 := Nat.exists_eq_succ_of_ne_zero (Nat.ne_zero_of_lt hm)
      have hn' : cs.length ≤ n := Nat.le_of_succ_le_succ hn
      have hm' : cs.length ≤ m := Nat.le_of_succ_le_succ hm
      rw [matchTokens, matchTokens]
      cases hc : isWhite c with
      | true => exact ih m cs hn' hm'
      | false =>
        -- a token takes its first character at least, so the fuel of the rest is enough for both
        have hquote := length_behind_quote cs
        have hword := length_behind_word hc cs
        dsimp only
        rw [ih m _ (hquote.trans hn') (hquote.trans hm'),
          ih m _ (hword.trans hn') (hword.trans hm'), if_neg Bool.false_ne_true,
          if_neg Bool.false_ne_true]

theorem matchTokens_eq {fuel : ℕ} {cs : List Char} (h : cs.length ≤ fuel) :
    matchTokens fuel cs = matchesOf cs :=
  matchTokens_congr fuel cs.length cs h le_rfl

theorem matchesOf_white {c : Char} (hc : isWhite c = true) (cs : List Char) :
    matchesOf (c :: cs) = matchesOf cs := by
  rw [matchesOf, List.length_cons, matchTokens, if_pos hc, matchesOf]

theorem matchesOf_quote {c : Char} {cs : List Char} (hc : isWhite c = false)
    (hquote : (isQuote c && cs.any isQuote) = true) :
    matchesOf (c :: cs) = (c :: (cs.takeWhile fun d => !isQuote d) ++ [c]) ::
      matchesOf ((cs.dropWhile fun d => !isQuote d).drop 1) := by
  rw [matchesOf, List.length_cons, matchTokens, if_neg (by rw [hc]; exact Bool.false_ne_true),
    if_pos hquote]
  dsimp only
  rw [matchTokens_eq (length_behind_quote cs)]

theorem matchesOf_word {c : Char} {cs : List Char} (hc : isWhite c = false)
    (hquote : (isQuote c && cs.any isQuote) = false) :
    matchesOf (c :: cs) = ((c :: cs).takeWhile fun d => !isWhite d) ::
      matchesOf ((c :: cs).dropWhile fun d => !isWhite d) := by
  rw [matchesOf, List.length_cons, matchTokens, if_neg (by rw [hc]; exact Bool.false_ne_true),
    if_neg (by rw [hquote]; exact Bool.false_ne_true)]
  dsimp only
  rw [matchTokens_eq (length_behind_word hc cs)]

theorem matchesOf_nil : matchesOf [] = [] := rfl

/-- A quote that is closed. -/
theorem exists_quoted {cs : List Char} (h : cs.any isQuote = true) :
    ∃ inner q rest, cs = inner ++ q :: rest ∧ isQuote q = true ∧
      ∀ d ∈ inner, isQuote d = false := by
  induction cs with
  | nil => cases h
  | cons c cs ih =>
    cases hc : isQuote c with
    | true => exact ⟨[], c, cs, rfl, hc, fun _ hd => absurd hd List.not_mem_nil⟩
    | false =>
      rw [List.any_cons, hc, Bool.false_or] at h
      obtain ⟨inner, q, rest, rfl, hq, hinner⟩ := ih h
      exact ⟨c :: inner, q, rest, rfl, hq, List.forall_mem_cons.2 ⟨hc, hinner⟩⟩

section Quoted

variable {inner : List Char} {q : Char} {rest : List Char}

theorem takeWhile_quoted (hinner : ∀ d ∈ inner, isQuote d = false) (hq : isQuote q = true) :
    ((inner ++ q :: rest).takeWhile fun d => !isQuote d) = inner := by
  rw [List.takeWhile_append_of_pos fun d hd => by rw [hinner d hd]; rfl,
    List.takeWhile_cons_of_neg (by rw [hq]; exact Bool.false_ne_true), List.append_nil]

theorem dropWhile_quoted (hinner : ∀ d ∈ inner, isQuote d = false) (hq : isQuote q = true) :
    ((inner ++ q :: rest).dropWhile fun d => !isQuote d) = q :: rest := by
  rw [List.dropWhile_append_of_pos fun d hd => by rw [hinner d hd]; rfl,
    List.dropWhile_cons_of_neg (by rw [hq]; exact Bool.false_ne_true)]

theorem isWhite_of_isQuote {c : Char} (hc : isQuote c = true) : isWhite c = false := by
  rw [isQuote, decide_eq_true_iff] at hc
  rw [isWhite, hc]
  rfl

/-- A text in quotes is one match. -/
theorem matchesOf_quoted {c : Char} (hc : isQuote c = true)
    (hinner : ∀ d ∈ inner, isQuote d = false) (hq : isQuote q = true) :
    matchesOf (c :: (inner ++ q :: rest)) = (c :: inner ++ [c]) :: matchesOf rest := by
  have hany : (inner ++ q :: rest).any isQuote = true :=
    List.any_eq_true.2 ⟨q, List.mem_append_right _ List.mem_cons_self, hq⟩
  rw [matchesOf_quote (isWhite_of_isQuote hc) (by rw [hc, hany]; rfl),
    takeWhile_quoted hinner hq, dropWhile_quoted hinner hq, List.drop_one, List.tail_cons]

end Quoted

/-- No match is longer than the text. -/
theorem length_le_of_mem_matchesOf (n : ℕ) (cs token : List Char) (hn : cs.length ≤ n)
    (h : token ∈ matchesOf cs) : token.length ≤ cs.length := by
  induction n generalizing cs with
  | zero =>
    rw [List.length_eq_zero_iff.1 (Nat.le_zero.1 hn), matchesOf_nil] at h
    cases h
  | succ n ih =>
    cases cs with
    | nil => cases h
    | cons c cs =>
      have hn' : cs.length ≤ n := Nat.le_of_succ_le_succ hn
      cases hc : isWhite c with
      | true =>
        rw [matchesOf_white hc] at h
        exact (ih cs hn' h).trans (Nat.le_succ _)
      | false =>
        cases hquote : isQuote c && cs.any isQuote with
        | true =>
          obtain ⟨hisQuote, hany⟩ := Bool.and_eq_true_iff.1 hquote
          obtain ⟨inner, q, rest, rfl, hq, hinner⟩ := exists_quoted hany
          rw [matchesOf_quoted hisQuote hinner hq, List.mem_cons] at h
          rw [List.length_append, List.length_cons] at hn'
          rw [List.length_cons, List.length_append, List.length_cons]
          obtain rfl | h := h
          · rw [List.length_append, List.length_cons, List.length_singleton]
            omega
          · have := ih rest (by omega) h
            omega
        | false =>
          rw [matchesOf_word hc hquote, List.mem_cons] at h
          have hrest := length_behind_word hc cs
          obtain rfl | h := h
          · exact (List.takeWhile_sublist _).length_le
          · exact (ih _ (hrest.trans hn') h).trans (hrest.trans (Nat.le_succ _))

theorem length_unquote_le (token : List Char) : (unquote token).length ≤ token.length := by
  rw [unquote]
  split
  · rw [List.length_dropLast, List.length_drop]
    omega
  · exact le_rfl

/-! ## A label that is one word -/

/-- It has no blank, and a quote in front is not closed and not alone. -/
def IsOneWord (label : List Char) : Prop :=
  (∀ c ∈ label, isWhite c = false) ∧
  (label.head?.any isQuote = true → label.tail ≠ [] ∧ label.tail.any isQuote = false)

-- character by character of the label, not over all characters
instance (label : List Char) : Decidable (IsOneWord label) :=
  @instDecidableAnd _ _ (List.decidableBAll (fun c => isWhite c = false) label)
    (inferInstanceAs (Decidable (_ → _)))

theorem unquote_quoted {c : Char} (hc : isQuote c = true) (inner : List Char) :
    unquote (c :: inner ++ [c]) = inner := by
  rw [unquote, if_pos, List.cons_append, List.drop_one, List.tail_cons, List.dropLast_concat]
  rw [List.cons_append, List.head?_cons, ← List.cons_append, List.getLast?_concat]
  exact Bool.and_eq_true_iff.2 ⟨hc, hc⟩

section OneWord

variable {c : Char} {cs : List Char}

theorem unquote_of_isOneWord (h : IsOneWord (c :: cs)) : unquote (c :: cs) = c :: cs := by
  rw [unquote]
  refine if_neg fun hquotes => ?_
  obtain ⟨hhead, hlast⟩ := Bool.and_eq_true_iff.1 hquotes
  obtain ⟨hne, hnone⟩ := h.2 hhead
  obtain ⟨d, hd, hisQuote⟩ := (Option.any_eq_true _ _).1 hlast
  have hd : cs.getLast? = some d := (List.getLast?_cons_of_ne_nil hne).symm.trans hd
  exact List.any_eq_false.1 hnone d (List.mem_of_getLast? hd) hisQuote

/-- Such a label is a match of its own. -/
theorem matchesOf_of_isOneWord (h : IsOneWord (c :: cs)) : matchesOf (c :: cs) = [c :: cs] := by
  have hword : ∀ d ∈ c :: cs, (!isWhite d) = true := fun d hd => by rw [h.1 d hd]; rfl
  have hquote : (isQuote c && cs.any isQuote) = false := by
    cases hc : isQuote c with
    | false => rfl
    | true =>
      have hnone : cs.any isQuote = false := (h.2 hc).2
      rw [hnone]
      rfl
  rw [matchesOf_word (h.1 c List.mem_cons_self) hquote, List.takeWhile_eq_self_iff.2 hword,
    List.dropWhile_eq_nil_iff.2 hword, matchesOf_nil]

/-- No other label is among the tokens it is read as: they are shorter. -/
theorem isOneWord_of_mem {token : List Char} (hc : isWhite c = false)
    (h : token ∈ matchesOf (c :: cs)) (hunquote : unquote token = c :: cs) :
    IsOneWord (c :: cs) := by
  -- a token that is as long as the whole label has taken all of it
  have hlength := length_unquote_le token
  rw [hunquote, List.length_cons] at hlength
  cases hquote : isQuote c && cs.any isQuote with
  | true =>
    obtain ⟨hisQuote, hany⟩ := Bool.and_eq_true_iff.1 hquote
    obtain ⟨inner, q, rest, rfl, hq, hinner⟩ := exists_quoted hany
    rw [matchesOf_quoted hisQuote hinner hq, List.mem_cons] at h
    rw [List.length_append, List.length_cons] at hlength
    obtain rfl | h := h
    · rw [unquote_quoted hisQuote] at hunquote
      have := congrArg List.length hunquote
      rw [List.length_cons, List.length_append] at this
      omega
    · have := length_le_of_mem_matchesOf _ rest token le_rfl h
      omega
  | false =>
    rw [matchesOf_word hc hquote, List.mem_cons] at h
    obtain rfl | h := h
    · have hself : (c :: cs).takeWhile (fun d => !isWhite d) = c :: cs :=
        (List.takeWhile_prefix _).eq_of_length_le hlength
      rw [hself] at hunquote
      refine ⟨fun d hd => ?_, fun hisQuote => ?_⟩
      · have := List.takeWhile_eq_self_iff.1 hself d hd
        rwa [Bool.not_eq_true'] at this
      · have hisQuote : isQuote c = true := hisQuote
        rw [hisQuote, Bool.true_and] at hquote
        refine ⟨fun hnil => ?_, hquote⟩
        have hnil : cs = [] := hnil
        have hone : unquote [c] = [] := if_pos (Bool.and_eq_true_iff.2 ⟨hisQuote, hisQuote⟩)
        rw [hnil, hone] at hunquote
        cases hunquote
    · have := length_le_of_mem_matchesOf _ _ token le_rfl h
      have := length_behind_word hc cs
      omega

end OneWord

/-! ## The command as tokens -/

theorem tokenizeCommand_eq (command : String) :
    tokenizeCommand command =
      (matchesOf command.toList).map fun token => String.ofList (unquote token) := rfl

theorem isQuote_iff (c : Char) : isQuote c = true ↔ c = '"' := by
  rw [isQuote, decide_eq_true_iff]
  exact ⟨fun h => Char.toNat_inj.1 h, fun h => h ▸ rfl⟩

theorem tokenizeCommand_quoted {s : String} (hs : '"' ∉ s.toList) (rest : String) :
    tokenizeCommand (doubleQuoted s ++ rest) = s :: tokenizeCommand rest := by
  have hinner : ∀ d ∈ s.toList, isQuote d = false := fun d hd =>
    Bool.eq_false_iff.2 fun hquote => hs ((isQuote_iff d).1 hquote ▸ hd)
  have hchars : (doubleQuoted s ++ rest).toList = '"' :: (s.toList ++ '"' :: rest.toList) := by
    simp [doubleQuoted]
  rw [tokenizeCommand_eq, hchars, matchesOf_quoted rfl hinner rfl, List.map_cons,
    unquote_quoted rfl, String.ofList_toList, tokenizeCommand_eq]

theorem tokenizeCommand_blank (s : String) : tokenizeCommand (" " ++ s) = tokenizeCommand s := by
  rw [tokenizeCommand_eq, String.toList_append]
  exact congrArg _ (matchesOf_white rfl s.toList)

/-- The subcommand, at the end or in front of a label. -/
theorem tokenizeCommand_subcommand {rest : String} (h : rest = "" ∨ ∃ s, rest = " " ++ s) :
    tokenizeCommand (HELPER_SUBCOMMAND ++ rest) = HELPER_SUBCOMMAND :: tokenizeCommand rest := by
  obtain rfl | ⟨s, rfl⟩ := h
  · rfl
  · have hmatches : matchesOf ('a' :: 'p' :: 'i' :: ' ' :: s.toList) =
        ['a', 'p', 'i'] :: matchesOf (' ' :: s.toList) := matchesOf_word rfl rfl
    rw [tokenizeCommand_eq, tokenizeCommand_eq, String.toList_append, String.toList_append]
    exact congrArg (List.map fun token => String.ofList (unquote token)) hmatches

/-- The tokens in front of the subcommand. -/
def leadingTokens (binary : Binary) : List String :=
  binary.execPath ::
    match binary.mainScript with
    | some mainScript =>
      if isRuntimeExecPath binary.execPath && mainScript ≠ "" then [mainScript] else []
    | none => []

/-- A binary of the proxy by its name, or a runtime; no path has a quote in it. -/
structure IsOwnBinary (binary : Binary) : Prop where
  execPath_unquoted : '"' ∉ binary.execPath.toList
  mainScript_unquoted : ∀ mainScript, binary.mainScript = some mainScript →
    '"' ∉ mainScript.toList
  name : isRuntimeExecPath binary.execPath = true ∨ basename binary.execPath = "maximal" ∨
    startsWith (basename binary.execPath) "maximal-" = true

/-- The text in front of the subcommand. -/
def invocation (binary : Binary) : String :=
  match binary.mainScript with
  | some mainScript =>
    if isRuntimeExecPath binary.execPath && mainScript ≠ "" then
      doubleQuoted binary.execPath ++ (" " ++ doubleQuoted mainScript)
    else doubleQuoted binary.execPath
  | none => doubleQuoted binary.execPath

section Written

variable {binary : Binary}

theorem tokenizeCommand_invocation (h : IsOwnBinary binary) (rest : String) :
    tokenizeCommand (invocation binary ++ (" " ++ rest)) =
      leadingTokens binary ++ tokenizeCommand rest := by
  have hexec : ∀ rest, tokenizeCommand (doubleQuoted binary.execPath ++ (" " ++ rest)) =
      binary.execPath :: tokenizeCommand rest := fun rest => by
    rw [tokenizeCommand_quoted h.execPath_unquoted, tokenizeCommand_blank]
  rw [invocation, leadingTokens]
  cases hmain : binary.mainScript with
  | none => exact hexec rest
  | some mainScript =>
    dsimp only
    split
    -- only a runtime is given a script
    · rw [String.append_assoc, String.append_assoc, hexec,
        tokenizeCommand_quoted (h.mainScript_unquoted mainScript hmain), tokenizeCommand_blank]
      rfl
    · exact hexec rest

theorem apiKeyHelperCommand_eq (label : Option String) (binary : Binary) :
    apiKeyHelperCommand label binary =
      match label.map trim with
      | some label =>
        if label ≠ "" then invocation binary ++ (" " ++ (HELPER_SUBCOMMAND ++ (" " ++ label)))
        else invocation binary ++ (" " ++ HELPER_SUBCOMMAND)
      | none => invocation binary ++ (" " ++ HELPER_SUBCOMMAND) := rfl

/-- The label is split again. -/
theorem tokenizeCommand_apiKeyHelperCommand (h : IsOwnBinary binary) (label : Option String) :
    tokenizeCommand (apiKeyHelperCommand label binary) =
      leadingTokens binary ++
        HELPER_SUBCOMMAND :: tokenizeCommand ((label.map trim).getD "") := by
  have hbare : tokenizeCommand (invocation binary ++ (" " ++ HELPER_SUBCOMMAND)) =
      leadingTokens binary ++ HELPER_SUBCOMMAND :: tokenizeCommand "" := by
    rw [tokenizeCommand_invocation h]
    rfl
  rw [apiKeyHelperCommand_eq]
  cases label.map trim with
  | none => exact hbare
  | some label =>
    dsimp only [Option.getD_some]
    by_cases hlabel : label = ""
    · rw [if_neg (not_not.2 hlabel), hbare, hlabel]
    · rw [if_pos hlabel, tokenizeCommand_invocation h,
        tokenizeCommand_subcommand (.inr ⟨label, rfl⟩), tokenizeCommand_blank]

theorem invokesMaximal_leadingTokens (h : IsOwnBinary binary) :
    invokesMaximal (leadingTokens binary) = true := by
  rw [leadingTokens, invokesMaximal, Bool.or_eq_true, List.any_cons, Bool.or_eq_true]
  obtain hruntime | hname := h.name
  · exact .inr hruntime
  · refine .inl (.inl ?_)
    rw [isMaximalAnchor]
    obtain hname | hname := hname
    · simp [hname]
    · simp [hname]

end Written

/-! ## What is recognised -/

/-- The tokens of a label. -/
def labelTokens (label : Option String) : List String := (label.filter (· ≠ "")).toList

theorem eq_take_append_pair {tokens : List String} {a b : String} (hn : 2 ≤ tokens.length)
    (ha : tokens[tokens.length - 2]? = some a) (hb : tokens[tokens.length - 1]? = some b) :
    tokens = tokens.take (tokens.length - 2) ++ [a, b] := by
  obtain ⟨hlt, rfl⟩ := List.getElem?_eq_some_iff.1 ha
  obtain ⟨hlt', rfl⟩ := List.getElem?_eq_some_iff.1 hb
  have hnext : tokens.length - 2 + 1 = tokens.length - 1 := by omega
  have hend : tokens.length - 1 + 1 = tokens.length := by omega
  have hdrop : tokens.drop (tokens.length - 2) =
      [tokens[tokens.length - 2], tokens[tokens.length - 1]] := by
    rw [List.drop_eq_getElem_cons hlt, hnext, List.drop_eq_getElem_cons hlt', hend,
      List.drop_length]
  rw [← hdrop, List.take_append_drop]

theorem matchTrailingSubcommand_eq_some_iff {tokens leading : List String} {subcommand : String}
    {label : Option String} :
    matchTrailingSubcommand tokens subcommand label = some leading ↔
      tokens = leading ++ subcommand :: labelTokens label := by
  have hbare : (if tokens.getLast? = some subcommand then some tokens.dropLast else none) =
      some leading ↔ tokens = leading ++ [subcommand] := by
    constructor
    · intro hsome
      split at hsome
      · next hlast =>
        rw [← Option.some.inj hsome]
        exact (List.dropLast_append_getLast? subcommand hlast).symm
      · cases hsome
    · rintro rfl
      rw [List.getLast?_concat, if_pos rfl, List.dropLast_concat]
  rw [matchTrailingSubcommand.eq_def]
  cases label with
  | none => exact hbare
  | some label =>
    dsimp only
    by_cases hlabel : label = ""
    · rw [if_neg (not_not.2 hlabel), hlabel]
      exact hbare
    · have htokens : labelTokens (some label) = [label] := by simp [labelTokens, hlabel]
      rw [if_pos hlabel, htokens]
      constructor
      · intro hsome
        split at hsome
        · next hlast =>
          obtain ⟨hn, hsub, hlabel⟩ := hlast
          rw [← Option.some.inj hsome]
          exact eq_take_append_pair hn hsub hlabel
        · cases hsome
      · rintro rfl
        rw [if_pos]
        · simp
        · simp

/-- Recognised: the subcommand and the label at the end, and the flag of old or something of the
proxy in front. -/
theorem isOwnedApiKeyHelper_iff {command : Val} {label : Option String} :
    isOwnedApiKeyHelper command label = true ↔
      ∃ text leading, command.asString = some text ∧
        (tokenizeCommand text = leading ++ LEGACY_HELPER_FLAG :: labelTokens (label.map trim) ∨
          tokenizeCommand text = leading ++ HELPER_SUBCOMMAND :: labelTokens (label.map trim) ∧
            invokesMaximal leading = true) := by
  rw [isOwnedApiKeyHelper]
  cases htext : command.asString with
  | none => exact iff_of_false Bool.false_ne_true fun ⟨_, _, hsome, _⟩ => nomatch hsome
  | some text =>
    dsimp only
    by_cases hnil : tokenizeCommand text = []
    · rw [if_pos hnil]
      refine iff_of_false Bool.false_ne_true ?_
      rintro ⟨_, leading, hsome, htokens⟩
      rw [← Option.some.inj hsome, hnil] at htokens
      obtain htokens | ⟨htokens, -⟩ := htokens <;> simp at htokens
    · rw [if_neg hnil, Bool.or_eq_true, Option.isSome_iff_exists, Option.any_eq_true]
      simp only [matchTrailingSubcommand_eq_some_iff]
      constructor
      · rintro (⟨leading, h⟩ | ⟨leading, h, hinvokes⟩)
        · exact ⟨text, leading, rfl, .inl h⟩
        · exact ⟨text, leading, rfl, .inr ⟨h, hinvokes⟩⟩
      · rintro ⟨_, leading, hsome, h⟩
        obtain rfl := Option.some.inj hsome
        obtain h | ⟨h, hinvokes⟩ := h
        · exact .inl ⟨leading, h⟩
        · exact .inr ⟨leading, h, hinvokes⟩

/-! ## The command and its label -/

/-- The subcommand and exactly the label at the end; in front of them a binary or an entry script of
the proxy, or a runtime that comes first. -/
def IsHelperCommand (tokens : List String) (label : Option String) : Prop :=
  ∃ leading, tokens = leading ++ HELPER_SUBCOMMAND :: labelTokens (label.map trim) ∧
    ((∃ token ∈ leading, isMaximalAnchor token = true) ∨
      ∃ first rest, leading = first :: rest ∧ isRuntimeExecPath first = true)

theorem isHelperCommand_of_recognised {text : String} {label : Option String}
    (hflag : LEGACY_HELPER_FLAG ∉ tokenizeCommand text)
    (h : isOwnedApiKeyHelper (some (.string text)) label = true) :
    IsHelperCommand (tokenizeCommand text) label := by
  obtain ⟨_, leading, hsome, htokens⟩ := isOwnedApiKeyHelper_iff.1 h
  obtain rfl := Option.some.inj hsome
  obtain htokens | ⟨htokens, hinvokes⟩ := htokens
  · refine absurd ?_ hflag
    rw [htokens]
    exact List.mem_append_right _ List.mem_cons_self
  · refine ⟨leading, htokens, ?_⟩
    cases leading with
    | nil => cases hinvokes
    | cons first rest =>
      rw [invokesMaximal, Bool.or_eq_true] at hinvokes
      obtain hanchor | hruntime := hinvokes
      · exact .inl (List.any_eq_true.1 hanchor)
      · exact .inr ⟨first, rest, rfl, hruntime⟩

/-- Every text that does not start with a blank has a token. -/
theorem matchesOf_ne_nil {c : Char} (hc : isWhite c = false) (cs : List Char) :
    matchesOf (c :: cs) ≠ [] := by
  cases hquote : isQuote c && cs.any isQuote with
  | true =>
    rw [matchesOf_quote hc hquote]
    exact List.cons_ne_nil _ _
  | false =>
    rw [matchesOf_word hc hquote]
    exact List.cons_ne_nil _ _

section Label

variable {label wanted : String}

/-- The characters of a label that is left after trimming. -/
theorem trim_eq_cons (h : trim label = wanted) (hne : wanted ≠ "") :
    ∃ c cs, wanted.toList = c :: cs ∧ isWhite c = false := by
  cases hchars : wanted.toList with
  | nil => exact absurd (String.toList_eq_nil_iff.1 hchars) hne
  | cons c cs =>
    rw [← h, trim, String.toList_ofList] at hchars
    have hhead : c ∈ (trimChars label.toList).head? := by
      rw [hchars]
      rfl
    exact ⟨c, cs, rfl, isWhite_head_trimChars hhead⟩

theorem tokenizeCommand_of_isOneWord (h : trim label = wanted) (hne : wanted ≠ "")
    (hword : IsOneWord wanted.toList) : tokenizeCommand wanted = [wanted] := by
  obtain ⟨c, cs, hchars, -⟩ := trim_eq_cons h hne
  have hself : String.ofList (c :: cs) = wanted := by rw [← hchars, String.ofList_toList]
  rw [hchars] at hword
  rw [tokenizeCommand_eq, hchars, matchesOf_of_isOneWord hword, List.map_singleton,
    unquote_of_isOneWord hword, hself]

/-- A label that is the last of its tokens is one word. -/
theorem isOneWord_of_getLast (h : trim label = wanted) (hne : wanted ≠ "")
    {front : List String} {subcommand : String} {leading : List String} {sub : String}
    (htokens : front ++ subcommand :: tokenizeCommand wanted = leading ++ [sub, wanted]) :
    IsOneWord wanted.toList := by
  obtain ⟨c, cs, hchars, hc⟩ := trim_eq_cons h hne
  have hnil : tokenizeCommand wanted ≠ [] := by
    rw [tokenizeCommand_eq, hchars]
    exact List.map_eq_nil_iff.not.2 (matchesOf_ne_nil hc cs)
  have hlast : (tokenizeCommand wanted).getLast? = some wanted := by
    have hright : (leading ++ [sub, wanted]).getLast? = some wanted := by simp
    rw [← htokens, List.getLast?_append_cons, List.getLast?_cons_of_ne_nil hnil] at hright
    exact hright
  obtain ⟨token, htoken, hunquote⟩ := List.mem_map.1 (List.mem_of_getLast? hlast)
  have hunquote : unquote token = c :: cs := by
    rw [← hchars, ← hunquote, String.toList_ofList]
  rw [hchars] at htoken ⊢
  exact isOneWord_of_mem hc htoken hunquote

end Label

/-- The command that a binary of the proxy writes is recognised if and only if the label, if any, is
one word. What is recognised without the flag of old is a command for that label. -/
theorem ownCommand_recognised_iff {binary : Binary} (h : IsOwnBinary binary)
    (label : Option String) :
    (isOwnedApiKeyHelper (some (.string (apiKeyHelperCommand label binary))) label = true ↔
      ∀ wanted, label.map trim = some wanted → wanted ≠ "" → IsOneWord wanted.toList) ∧
    ∀ text label', LEGACY_HELPER_FLAG ∉ tokenizeCommand text →
      isOwnedApiKeyHelper (some (.string text)) label' = true →
      IsHelperCommand (tokenizeCommand text) label' := by
  refine ⟨?_, fun _ _ => isHelperCommand_of_recognised⟩
  rw [isOwnedApiKeyHelper_iff]
  constructor
  · rintro ⟨_, leading, hsome, htokens⟩ wanted hwanted hne
    obtain ⟨given, -, htrim⟩ := Option.map_eq_some_iff.1 hwanted
    have hlabel : labelTokens (some wanted) = [wanted] := by simp [labelTokens, hne]
    -- either way the last token is the whole label
    rw [← Option.some.inj hsome, tokenizeCommand_apiKeyHelperCommand h, hwanted, hlabel] at htokens
    obtain htokens | ⟨htokens, -⟩ := htokens
    · exact isOneWord_of_getLast htrim hne htokens
    · exact isOneWord_of_getLast htrim hne htokens
  · intro hword
    refine ⟨_, leadingTokens binary, rfl, .inr ⟨?_, invokesMaximal_leadingTokens h⟩⟩
    rw [tokenizeCommand_apiKeyHelperCommand h]
    congr 2
    cases hwanted : label.map trim with
    | none => rfl
    | some wanted =>
      by_cases hne : wanted = ""
      · rw [hne]
        rfl
      · obtain ⟨given, -, htrim⟩ := Option.map_eq_some_iff.1 hwanted
        have hlabel : labelTokens (some wanted) = [wanted] := by simp [labelTokens, hne]
        rw [hlabel]
        exact tokenizeCommand_of_isOneWord htrim hne (hword wanted hwanted hne)

/-- The compiled binary in a folder with a blank in its name, and a client of one word. -/
def compiled : Binary := ⟨"/Users/me/My Apps/maximal-arm64", none⟩

theorem isOwnBinary_compiled : IsOwnBinary compiled where
  execPath_unquoted := by decide +kernel
  mainScript_unquoted := nofun
  name := by decide +kernel

theorem ownCommand_recognised_compiled :
    isOwnedApiKeyHelper (some (.string (apiKeyHelperCommand (some " claude-code") compiled)))
      (some " claude-code") = true := by
  refine (ownCommand_recognised_iff isOwnBinary_compiled (some " claude-code")).1.2 ?_
  intro wanted hwanted _
  have htrim : trim " claude-code" = "claude-code" := by decide +kernel
  rw [← Option.some.inj hwanted, htrim]
  decide +kernel

/-- A label of two words comes back as two tokens. -/
theorem two_words_foreign :
    IsOwnBinary compiled ∧
    apiKeyHelperCommand (some "Claude Code") compiled =
      "\"/Users/me/My Apps/maximal-arm64\" api Claude Code" ∧
    isOwnedApiKeyHelper (some (.string (apiKeyHelperCommand (some "Claude Code") compiled)))
      (some "Claude Code") = false :=
  ⟨isOwnBinary_compiled, by decide +kernel, by decide +kernel⟩

end Maximal.Auth
