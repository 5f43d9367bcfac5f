import Maximal.Auth.RequestAuth
import Maximal.Lib.Js.OrderedMap

/-!
# Active clients

Which clients have been here lately. A request records its client, a timer deletes records that are
old, and the roster shows those of the last seconds.

## Main definitions

- `recordClient`, `pruneClients`, `listActiveClients`
- `clientsAfter` — the records after requests and timers in any order
- `LastSeen` — the last request of a client, if no timer has found it old since

## Main results

- `listActiveClients_exact`
-/

namespace Maximal.Http

open Js Auth

structure ActiveClientRecord where
  userAgent : String
  apiKeyId : Option String
  apiKeyLabel : Option String
  lastSeenAt : ℤ
  deriving DecidableEq

structure ActiveClient where
  key : String
  label : String
  userAgent : String
  ageSeconds : ℤ
  deriving DecidableEq

abbrev Clients := OrderedMap String ActiveClientRecord

def MAX_AGE_MS : ℤ := 5 * 60 * 1000

def entryKey (apiKeyId : Option String) (userAgent : String) : String :=
  apiKeyId.getD "*" ++ "|" ++ userAgent

/-- The record of a client that is seen at a time. -/
def recordOf (input : RecordedClient) (now : ℤ) : ActiveClientRecord :=
  ⟨trim input.userAgent, input.apiKeyId, input.apiKeyLabel, now⟩

def keyOf (input : RecordedClient) : String := entryKey input.apiKeyId (trim input.userAgent)

def recordClient (clients : Clients) (input : RecordedClient) (now : ℤ) : Clients :=
  if trim input.userAgent = "" then clients else clients.set (keyOf input) (recordOf input now)

/-- What the timer does. -/
def pruneClients (clients : Clients) (now : ℤ) : Clients :=
  clients.filter fun (_, record) => ¬ record.lastSeenAt < now - MAX_AGE_MS

section

variable (humanizeUserAgent : String → String)

/-- `humanizeUserAgent` makes a label of a user agent. -/
def shown (now : ℤ) (key : String) (record : ActiveClientRecord) : ActiveClient where
  key := key
  label := record.apiKeyLabel.getD (humanizeUserAgent record.userAgent)
  userAgent := record.userAgent
  ageSeconds := max 0 ((now - record.lastSeenAt) / 1000)

def listActiveClients (clients : Clients) (now : ℤ) (maxAgeSeconds : ℤ := 60) :
    List ActiveClient :=
  let recent := clients.entries.filter fun (_, record) =>
    ¬ record.lastSeenAt < now - maxAgeSeconds * 1000
  (recent.map fun (key, record) => shown humanizeUserAgent now key record).mergeSort
    fun a b => a.ageSeconds ≤ b.ageSeconds

end

/-! ## Requests and timers -/

inductive Seen where
  | client (input : RecordedClient) (now : ℤ)
  | prune (now : ℤ)

def Seen.time : Seen → ℤ
  | .client _ now | .prune now => now

def seenStep (clients : Clients) : Seen → Clients
  | .client input now => recordClient clients input now
  | .prune now => pruneClients clients now

def clientsAfter (events : List Seen) : Clients := events.foldl seenStep OrderedMap.empty

/-- A request of the client; one without a user agent is of no client. -/
def Names (key : String) (input : RecordedClient) : Prop :=
  trim input.userAgent ≠ "" ∧ keyOf input = key

/-- The record of the client stays as it is. -/
def Seen.Spares (key : String) (record : ActiveClientRecord) : Seen → Prop
  | .client input _ => ¬ Names key input
  | .prune now => now - MAX_AGE_MS ≤ record.lastSeenAt

/-- The record is that of the last request of the client, and no timer has found it old since. -/
def LastSeen (events : List Seen) (key : String) (record : ActiveClientRecord) : Prop :=
  ∃ before input now after, events = before ++ .client input now :: after ∧ Names key input ∧
    record = recordOf input now ∧ ∀ e ∈ after, e.Spares key record

variable {events : List Seen} {key : String} {record : ActiveClientRecord}

theorem lastSeen_concat {e : Seen} :
    LastSeen (events ++ [e]) key record ↔
      (∃ input now, e = .client input now ∧ Names key input ∧ record = recordOf input now) ∨
        LastSeen events key record ∧ e.Spares key record := by
  constructor
  · rintro ⟨before, input, now, after, heq, hnames, hrecord, hspares⟩
    obtain rfl | ⟨after, last, rfl⟩ := after.eq_nil_or_concat'
    · obtain ⟨-, he⟩ := List.append_inj' heq rfl
      exact .inl ⟨input, now, List.singleton_inj.1 he, hnames, hrecord⟩
    · rw [← List.cons_append, ← List.append_assoc] at heq
      obtain ⟨hevents, he⟩ := List.append_inj' heq rfl
      obtain rfl := List.singleton_inj.1 he
      refine .inr ⟨⟨before, input, now, after, hevents, hnames, hrecord, fun e he => ?_⟩, ?_⟩
      · exact hspares e (List.mem_append_left _ he)
      · exact hspares _ (List.mem_append_right _ (List.mem_singleton_self _))
  · rintro (⟨input, now, rfl, hnames, hrecord⟩ |
      ⟨⟨before, input, now, after, rfl, hnames, hrecord, hspares⟩, he⟩)
    · exact ⟨events, input, now, [], rfl, hnames, hrecord, fun e he => nomatch he⟩
    · refine ⟨before, input, now, after ++ [e], by rw [List.append_assoc, List.cons_append],
        hnames, hrecord, fun e' he' => ?_⟩
      obtain he' | he' := List.mem_append.1 he'
      · exact hspares e' he'
      · rwa [List.mem_singleton.1 he']

theorem mem_clientsAfter_iff :
    (key, record) ∈ (clientsAfter events).entries ↔ LastSeen events key record := by
  induction events using List.reverseRecOn generalizing record with
  | nil =>
    refine iff_of_false List.not_mem_nil ?_
    rintro ⟨before, input, now, after, heq, -⟩
    exact List.append_ne_nil_of_right_ne_nil _ (List.cons_ne_nil _ _) heq.symm
  | append_singleton events e ih =>
    have hstep : clientsAfter (events ++ [e]) = seenStep (clientsAfter events) e := by
      rw [clientsAfter, List.foldl_append]
      rfl
    rw [hstep, lastSeen_concat, ← ih]
    cases e with
    | client input now =>
      by_cases hblank : trim input.userAgent = ""
      · have hnot : ∀ key, ¬ Names key input := fun key h => h.1 hblank
        rw [seenStep, recordClient, if_pos hblank, Seen.Spares, and_iff_left (hnot key)]
        refine (or_iff_right ?_).symm
        rintro ⟨input', now', heq, hnames, -⟩
        cases heq
        exact hnot key hnames
      · rw [seenStep, recordClient, if_neg hblank, OrderedMap.mem_entries_set, Seen.Spares, Names,
          Prod.mk.injEq]
        refine or_congr ⟨?_, ?_⟩ (and_congr_right fun _ => ?_)
        · rintro ⟨rfl, rfl⟩
          exact ⟨input, now, rfl, ⟨hblank, rfl⟩, rfl⟩
        · rintro ⟨input', now', heq, hnames, rfl⟩
          cases heq
          exact ⟨hnames.2.symm, rfl⟩
        · rw [and_iff_right hblank]
          exact ne_comm
    | prune now =>
      rw [seenStep, pruneClients, OrderedMap.filter, List.mem_filter, Seen.Spares]
      have hspared : decide (¬ record.lastSeenAt < now - MAX_AGE_MS) = true ↔
          now - MAX_AGE_MS ≤ record.lastSeenAt := by
        rw [decide_eq_true_iff, not_lt]
      rw [hspared]
      refine (or_iff_right ?_).symm
      rintro ⟨input', now', heq, -⟩
      cases heq

/-! ## The roster -/

section

variable (humanizeUserAgent : String → String)

theorem mem_listActiveClients {clients : Clients} {now maxAgeSeconds : ℤ} {c : ActiveClient} :
    c ∈ listActiveClients humanizeUserAgent clients now maxAgeSeconds ↔
      ∃ key record, (key, record) ∈ clients.entries ∧
        now - maxAgeSeconds * 1000 ≤ record.lastSeenAt ∧
        c = shown humanizeUserAgent now key record := by
  rw [listActiveClients, List.mem_mergeSort, List.mem_map]
  constructor
  · rintro ⟨⟨key, record⟩, hmem, rfl⟩
    obtain ⟨hmem, hrecent⟩ := List.mem_filter.1 hmem
    exact ⟨key, record, hmem, not_lt.1 (of_decide_eq_true hrecent), rfl⟩
  · rintro ⟨key, record, hmem, hrecent, rfl⟩
    exact ⟨(key, record), List.mem_filter.2 ⟨hmem, decide_eq_true (not_lt.2 hrecent)⟩, rfl⟩

theorem listActiveClients_pairwise (clients : Clients) (now maxAgeSeconds : ℤ) :
    (listActiveClients humanizeUserAgent clients now maxAgeSeconds).Pairwise
      fun a b => a.ageSeconds ≤ b.ageSeconds := by
  rw [listActiveClients]
  refine (List.pairwise_mergeSort (fun a b c hab hbc => ?_) (fun a b => ?_) _).imp of_decide_eq_true
  · exact decide_eq_true (le_trans (of_decide_eq_true hab) (of_decide_eq_true hbc))
  · rw [Bool.or_eq_true, decide_eq_true_iff, decide_eq_true_iff]
    exact le_total _ _

theorem listActiveClients_nodup (clients : Clients) (now maxAgeSeconds : ℤ) :
    ((listActiveClients humanizeUserAgent clients now maxAgeSeconds).map (·.key)).Nodup := by
  rw [listActiveClients]
  refine ((List.mergeSort_perm _ _).map _).nodup_iff.2 ?_
  rw [List.map_map]
  exact clients.nodup.sublist (List.filter_sublist.map _)

end

/-- A roster holds one line for each client whose last request is recent enough, unless a timer has
found that request more than five minutes old; it starts with the youngest line. While the clock
does not run backwards, no timer is in the way of a roster of five minutes or less. -/
theorem listActiveClients_exact (humanizeUserAgent : String → String) (events : List Seen)
    (now maxAgeSeconds : ℤ) :
    (∀ c, c ∈ listActiveClients humanizeUserAgent (clientsAfter events) now maxAgeSeconds ↔
      ∃ key record, LastSeen events key record ∧
        now - maxAgeSeconds * 1000 ≤ record.lastSeenAt ∧
        c = shown humanizeUserAgent now key record) ∧
    ((listActiveClients humanizeUserAgent (clientsAfter events) now maxAgeSeconds).map
      (·.key)).Nodup ∧
    (listActiveClients humanizeUserAgent (clientsAfter events) now maxAgeSeconds).Pairwise
      (fun a b => a.ageSeconds ≤ b.ageSeconds) ∧
    ((∀ e ∈ events, e.time ≤ now) → maxAgeSeconds ≤ 300 →
      ∀ before input seenAt after, events = before ++ .client input seenAt :: after →
        trim input.userAgent ≠ "" →
        (∀ e ∈ after, ∀ input' at', e = .client input' at' → ¬ Names (keyOf input) input') →
        now - maxAgeSeconds * 1000 ≤ seenAt →
          shown humanizeUserAgent now (keyOf input) (recordOf input seenAt) ∈
            listActiveClients humanizeUserAgent (clientsAfter events) now maxAgeSeconds) := by
  refine ⟨fun c => ?_, listActiveClients_nodup _ _ _ _, listActiveClients_pairwise _ _ _ _, ?_⟩
  · simp only [mem_listActiveClients, mem_clientsAfter_iff]
  · rintro htimes hmax before input seenAt after rfl hagent hlast hrecent
    rw [mem_listActiveClients]
    refine ⟨keyOf input, recordOf input seenAt, mem_clientsAfter_iff.2
      ⟨before, input, seenAt, after, rfl, ⟨hagent, rfl⟩, rfl, fun e he => ?_⟩, hrecent, rfl⟩
    cases e with
    | client input' at' => exact hlast _ he input' at' rfl
    | prune at' =>
      have htime : at' ≤ now :=
        htimes _ (List.mem_append_right _ (List.mem_cons_of_mem _ he))
      show at' - 300000 ≤ seenAt
      omega

/-- A client that was seen two seconds ago, one second before a timer. -/
theorem listActiveClients_exact_seen :
    shown id 3000 "*|claude-cli/1.0" ⟨"claude-cli/1.0", none, none, 1000⟩ ∈
      listActiveClients id (clientsAfter [.client ⟨none, none, "claude-cli/1.0"⟩ 1000, .prune 2000])
        3000 60 := by
  obtain ⟨-, -, -, hshown⟩ := listActiveClients_exact id
    [.client ⟨none, none, "claude-cli/1.0"⟩ 1000, .prune 2000] 3000 60
  refine hshown ?_ (by decide) [] ⟨none, none, "claude-cli/1.0"⟩ 1000 [.prune 2000] rfl
    (by decide +kernel) ?_ (by decide)
  · simp [Seen.time]
  · intro e he input' at' heq
    obtain rfl := List.mem_singleton.1 he
    cases heq

end Maximal.Http
