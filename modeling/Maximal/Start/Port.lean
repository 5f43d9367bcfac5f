import Maximal.Lib.Inquiry
import Mathlib.Data.List.Nodup
import Mathlib.Data.Nat.Basic

/-!
# The port to bind

Before the server starts, the port is probed and tested, and the policy decides what happens when
it is taken. Probe, test and eviction are questions to the machine; nothing is assumed of the
answers, and a question that throws ends the resolution.

## Main definitions

- `resolvePort` — the decision under each policy
- `Usable`, `Unusable` — what the answers have told about a port

## Main results

- `resolvePort_decides` — which port is found, and what is asked on the way
-/

namespace Maximal.Start

inductive PortPolicy where
  | fail | replace | next
  deriving DecidableEq, Repr

/-- Who answers a probe. -/
inductive Occupant where
  | free | maximal | other
  deriving DecidableEq, Repr

/-- Who holds a port that is taken. -/
inductive Holder where
  | maximal | other
  deriving DecidableEq, Repr

inductive PortQuestion where
  | probe (port : ℕ)
  | bindable (port : ℕ)
  | evict (port : ℕ)
  deriving DecidableEq, Repr

namespace PortQuestion

def Answer : PortQuestion → Type
  | probe _ => Occupant
  | bindable _ => Bool
  | evict _ => Unit

def port : PortQuestion → ℕ
  | probe p | bindable p | evict p => p

end PortQuestion

abbrev PortInquiry : Type → Type := Inquiry PortQuestion PortQuestion.Answer

abbrev PortLog : Type := Inquiry.Log PortQuestion PortQuestion.Answer

def probe (port : ℕ) : PortInquiry Occupant := Inquiry.question (PortQuestion.probe port)

def bindable (port : ℕ) : PortInquiry Bool := Inquiry.question (PortQuestion.bindable port)

def evict (port : ℕ) : PortInquiry Unit := Inquiry.question (PortQuestion.evict port)

def PORT_SCAN_LIMIT : ℕ := 20

def MAX_PORT : ℕ := 65535

inductive PortResolution where
  | ok (port : ℕ) (movedFrom : Option ℕ)
  | busy (port : ℕ) (occupant : Holder)
  /-- The field `from` is `first`. -/
  | exhausted (first through : ℕ)
  | evictFailed (port : ℕ)
  deriving DecidableEq, Repr

/-- The candidates of the scan, `left` of them. -/
def scanFrom (requested through : ℕ) : ℕ → ℕ → PortInquiry PortResolution
  | 0, _ => pure (.exhausted requested through)
  | left + 1, candidate => do
    match ← probe candidate with
    | .free =>
      if ← bindable candidate then pure (.ok candidate (some requested))
      else scanFrom requested through left (candidate + 1)
    | _ => scanFrom requested through left (candidate + 1)

/-- The last port that the scan may try. -/
def scanThrough (requested : ℕ) : ℕ := min (requested + PORT_SCAN_LIMIT - 1) MAX_PORT

def scanForNextFree (requested : ℕ) : PortInquiry PortResolution :=
  let through := scanThrough requested
  scanFrom requested through (through - requested) (requested + 1)

/-- The policy for a port that is taken. -/
def resolveConflict (requested : ℕ) (holder : Holder) : PortPolicy → PortInquiry PortResolution
  | .fail => pure (.busy requested holder)
  | .replace =>
    match holder with
    | .other => pure (.busy requested holder)
    | .maximal => do
      evict requested
      if ← bindable requested then pure (.ok requested none)
      else pure (.evictFailed requested)
  | .next => scanForNextFree requested

/-- A port that nobody answers on and that cannot be bound is held by someone else. -/
def resolvePort (requested : ℕ) (policy : PortPolicy) : PortInquiry PortResolution :=
  if requested = 0 then pure (.ok 0 none)
  else do
    match ← probe requested with
    | .free =>
      if ← bindable requested then pure (.ok requested none)
      else resolveConflict requested .other policy
    | .maximal => resolveConflict requested .maximal policy
    | .other => resolveConflict requested .other policy

/-! ## What the answers tell -/

/-- The port probed free and was bindable. -/
def Usable (log : PortLog) (port : ℕ) : Prop :=
  ⟨.probe port, some Occupant.free⟩ ∈ log ∧ ⟨.bindable port, some true⟩ ∈ log

/-- Somebody answered the probe of the port, or it was not bindable. -/
def Unusable (log : PortLog) (port : ℕ) : Prop :=
  (∃ occupant, occupant ≠ Occupant.free ∧ ⟨.probe port, some occupant⟩ ∈ log) ∨
    ⟨.bindable port, some false⟩ ∈ log

/-- The port was bindable after a maximal on it had been evicted. -/
def Evicted (log : PortLog) (port : ℕ) : Prop :=
  log = [⟨.probe port, some Occupant.maximal⟩, ⟨.evict port, some ()⟩, ⟨.bindable port, some true⟩]

/-- A question threw. -/
def Threw (log : PortLog) : Prop := ∃ question, ⟨question, none⟩ ∈ log

/-- A question that was asked once has one answer. -/
theorem answer_unique {log : PortLog} (h : (log.map Sigma.fst).Nodup) {q : PortQuestion}
    {a b : Option q.Answer} (ha : ⟨q, a⟩ ∈ log) (hb : ⟨q, b⟩ ∈ log) : a = b := by
  have heq := List.inj_on_of_nodup_map h ha hb rfl
  simpa using heq

theorem not_usable_unusable {log : PortLog} (h : (log.map Sigma.fst).Nodup) {port : ℕ}
    (husable : Usable log port) : ¬Unusable log port := by
  rintro (⟨occupant, hne, hmem⟩ | hmem)
  · exact hne (Option.some.inj (answer_unique h hmem husable.1))
  · exact Bool.noConfusion (Option.some.inj (answer_unique h hmem husable.2))

/-! ## The scan -/

/-- The questions are about these ports, none twice, and no port is evicted. -/
structure Scanned (first through : ℕ) (log : PortLog) : Prop where
  once : (log.map Sigma.fst).Nodup
  range : ∀ e ∈ log, first ≤ e.1.port ∧ e.1.port ≤ through
  spared : ∀ e ∈ log, ∀ port, e.1 ≠ .evict port

namespace Scanned

variable {first through : ℕ} {log : PortLog}

theorem nil : Scanned first through [] :=
  ⟨List.nodup_nil, by simp, by simp⟩

/-- One more question about a port of the range. -/
theorem cons (h : Scanned first through log) {q : PortQuestion} (a : Option q.Answer)
    (hrange : first ≤ q.port ∧ q.port ≤ through) (hspared : ∀ port, q ≠ .evict port)
    (hnew : q ∉ log.map Sigma.fst) : Scanned first through (⟨q, a⟩ :: log) :=
  ⟨List.nodup_cons.2 ⟨hnew, h.once⟩, List.forall_mem_cons.2 ⟨hrange, h.range⟩,
    List.forall_mem_cons.2 ⟨hspared, h.spared⟩⟩

theorem of_succ (h : Scanned (first + 1) through log) : Scanned first through log :=
  ⟨h.once, fun e he => ⟨Nat.le_of_succ_le (h.range e he).1, (h.range e he).2⟩, h.spared⟩

/-- Later candidates are not asked about the port before them. -/
theorem not_mem (h : Scanned (first + 1) through log) {q : PortQuestion} (hq : q.port = first) :
    q ∉ log.map Sigma.fst := by
  intro hmem
  obtain ⟨e, he, rfl⟩ := List.mem_map.1 hmem
  have := (h.range e he).1
  omega

end Scanned

/-- The port that is found is the first usable one; otherwise all are unusable, or a question
threw. -/
def FirstUsable (requested first through : ℕ) (log : PortLog) : Option PortResolution → Prop
  | none => Threw log
  | some (.ok port movedFrom) =>
    movedFrom = (if port = requested then none else some requested) ∧ first ≤ port ∧
      port ≤ through ∧ Usable log port ∧ ∀ p, first ≤ p → p < port → Unusable log p
  | some (.exhausted f t) =>
    f = requested ∧ t = through ∧ ∀ p, first ≤ p → p ≤ through → Unusable log p
  | some _ => False

/-- An unusable port comes before the others. -/
theorem FirstUsable.cons {requested first through : ℕ} {log : PortLog}
    {result : Option PortResolution} (h : FirstUsable requested (first + 1) through log result)
    (asked : PortLog) (hfirst : Unusable (asked ++ log) first) :
    FirstUsable requested first through (asked ++ log) result := by
  have hunusable {p : ℕ} (hp : Unusable log p) : Unusable (asked ++ log) p :=
    hp.imp (fun ⟨occupant, hne, hmem⟩ => ⟨occupant, hne, List.mem_append_right asked hmem⟩)
      (List.mem_append_right asked)
  have hfrom {p : ℕ} (hp : first ≤ p) (hlater : first + 1 ≤ p → Unusable log p) :
      Unusable (asked ++ log) p := by
    obtain rfl | hlt := Nat.eq_or_lt_of_le hp
    · exact hfirst
    · exact hunusable (hlater hlt)
  rcases result with _ | (⟨port, movedFrom⟩ | _ | ⟨f, t⟩ | _)
  · obtain ⟨question, hmem⟩ := h
    exact ⟨question, List.mem_append_right asked hmem⟩
  · obtain ⟨hmoved, hle, hthrough, husable, hbefore⟩ := h
    exact ⟨hmoved, by omega, hthrough, ⟨List.mem_append_right asked husable.1,
      List.mem_append_right asked husable.2⟩, fun p hp hlt => hfrom hp fun hp' => hbefore p hp' hlt⟩
  · exact h
  · obtain ⟨hf, ht, hall⟩ := h
    exact ⟨hf, ht, fun p hp hle => hfrom hp fun hp' => hall p hp' hle⟩
  · exact h

/-- What the questions and the answers of a scan amount to. -/
def Scans (requested first through : ℕ) (log : PortLog) (result : Option PortResolution) : Prop :=
  Scanned first through log ∧ FirstUsable requested first through log result

namespace Scans

variable {requested first through : ℕ}

/-- The probe of a candidate that throws. -/
theorem probe_fails (h : first ≤ through) :
    Scans requested first through [⟨.probe first, none⟩] none :=
  ⟨Scanned.nil.cons none ⟨le_rfl, h⟩ nofun List.not_mem_nil, _, List.mem_cons_self⟩

/-- A candidate that somebody answers on comes before the others. -/
theorem occupied {log : PortLog} {result : Option PortResolution}
    (h : Scans requested (first + 1) through log result) (hle : first ≤ through)
    {occupant : Occupant} (hne : occupant ≠ .free) :
    Scans requested first through (⟨.probe first, some occupant⟩ :: log) result :=
  ⟨h.1.of_succ.cons _ ⟨le_rfl, hle⟩ nofun (h.1.not_mem rfl),
    h.2.cons [⟨.probe first, some occupant⟩]
      (.inl ⟨occupant, hne, List.mem_cons_self⟩)⟩

/-- The questions about a candidate that probes free. -/
theorem scanned_quiet {log : PortLog} (h : Scanned (first + 1) through log) (hle : first ≤ through)
    (a : Option Bool) :
    Scanned first through
      (⟨.probe first, some Occupant.free⟩ :: ⟨.bindable first, a⟩ :: log) := by
  have htest : Scanned first through (⟨.bindable first, a⟩ :: log) :=
    h.of_succ.cons (q := .bindable first) a ⟨le_rfl, hle⟩ nofun (h.not_mem rfl)
  refine htest.cons (q := .probe first) _ ⟨le_rfl, hle⟩ nofun ?_
  rw [List.map_cons, List.mem_cons, not_or]
  exact ⟨by rintro ⟨⟩, h.not_mem rfl⟩

/-- A candidate that probes free and cannot be bound comes before the others. -/
theorem held {log : PortLog} {result : Option PortResolution}
    (h : Scans requested (first + 1) through log result) (hle : first ≤ through) :
    Scans requested first through
      (⟨.probe first, some Occupant.free⟩ :: ⟨.bindable first, some false⟩ :: log) result :=
  ⟨scanned_quiet h.1 hle _,
    h.2.cons [⟨.probe first, some Occupant.free⟩, ⟨.bindable first, some false⟩]
      (.inr (List.mem_cons_of_mem _ List.mem_cons_self))⟩

/-- The test of a candidate throws. -/
theorem test_fails (h : first ≤ through) :
    Scans requested first through
      [⟨.probe first, some Occupant.free⟩, ⟨.bindable first, none⟩] none :=
  ⟨scanned_quiet Scanned.nil h none, _, List.mem_cons_of_mem _ List.mem_cons_self⟩

/-- A candidate that probes free and can be bound is found. -/
theorem found (requested : ℕ) (h : first ≤ through) :
    Scans requested first through
      [⟨.probe first, some Occupant.free⟩, ⟨.bindable first, some true⟩]
      (some (.ok first (if first = requested then none else some requested))) :=
  ⟨scanned_quiet Scanned.nil h (some true), rfl, le_rfl, h,
    ⟨List.mem_cons_self, List.mem_cons_of_mem _ List.mem_cons_self⟩,
    fun _ hp hlt => absurd hp (Nat.not_le.2 hlt)⟩

/-- No candidate is left. -/
theorem exhausted (h : through < first) :
    Scans requested first through [] (some (.exhausted requested through)) :=
  ⟨Scanned.nil, rfl, rfl, fun _ hp hle => absurd (le_trans hp hle) (Nat.not_le.2 h)⟩

end Scans

theorem scanFrom_wp (requested through : ℕ) {left candidate : ℕ}
    (hleft : candidate + left = through + 1) (hlater : requested < candidate) :
    (scanFrom requested through left candidate).wp (Scans requested candidate through) := by
  induction left generalizing candidate with
  | zero => exact Scans.exhausted (by omega)
  | succ left ih =>
    have hle : candidate ≤ through := by omega
    have hrest : (scanFrom requested through left (candidate + 1)).wp
        (Scans requested (candidate + 1) through) := ih (by omega) (by omega)
    refine ⟨Scans.probe_fails hle, fun occupant => ?_⟩
    cases occupant with
    | free =>
      refine ⟨Scans.test_fails hle, fun bound => ?_⟩
      cases bound with
      | false => exact Inquiry.wp_mono hrest fun log result h => h.held hle
      | true =>
        have hfound := Scans.found requested hle
        rwa [if_neg (by omega)] at hfound
    | maximal => exact Inquiry.wp_mono hrest fun log result h => h.occupied hle (by decide)
    | other => exact Inquiry.wp_mono hrest fun log result h => h.occupied hle (by decide)

/-! ## The resolution -/

theorem le_scanThrough {requested : ℕ} (h : requested ≤ MAX_PORT) :
    requested ≤ scanThrough requested :=
  le_min (by rw [PORT_SCAN_LIMIT]; omega) h

/-- The scan, once the requested port has turned out to be taken. -/
theorem scanForNextFree_wp {requested : ℕ} (h : requested ≤ MAX_PORT) :
    (scanForNextFree requested).wp
      (Scans requested (requested + 1) (scanThrough requested)) := by
  have hle := le_scanThrough h
  exact scanFrom_wp requested _ (by omega) (Nat.lt_succ_self requested)

theorem resolvePort_next_wp {requested : ℕ} (hpos : requested ≠ 0) (h : requested ≤ MAX_PORT) :
    (resolvePort requested .next).wp (Scans requested requested (scanThrough requested)) := by
  have hle := le_scanThrough h
  have hscan := scanForNextFree_wp h
  rw [resolvePort, if_neg hpos]
  refine ⟨Scans.probe_fails hle, fun occupant => ?_⟩
  cases occupant with
  | free =>
    refine ⟨Scans.test_fails hle, fun bound => ?_⟩
    cases bound with
    | false => exact Inquiry.wp_mono hscan fun log result h => h.held hle
    | true =>
      have hfound := Scans.found requested hle
      rwa [if_pos rfl] at hfound
  | maximal => exact Inquiry.wp_mono hscan fun log result h => h.occupied hle (by decide)
  | other => exact Inquiry.wp_mono hscan fun log result h => h.occupied hle (by decide)

/-- What the answers show where no port is found. -/
def Refused (requested : ℕ) (policy : PortPolicy) (log : PortLog) : PortResolution → Prop
  | .ok _ _ => True
  | .busy port _ => policy ≠ .next ∧ port = requested ∧ Unusable log requested
  | .exhausted first through =>
    policy = .next ∧ first = requested ∧ through = min (requested + 19) 65535
  | .evictFailed port =>
    policy = .replace ∧ port = requested ∧ ⟨.bindable requested, some false⟩ ∈ log

/-- What is found and what is asked under a policy; `result` is missing when a question threw. -/
structure Decides (requested : ℕ) (policy : PortPolicy) (log : PortLog)
    (result : Option PortResolution) : Prop where
  ok : ∀ port movedFrom, result = some (.ok port movedFrom) →
    Usable log port ∨ policy = .replace ∧ port = requested ∧ Evicted log requested
  least : policy = .next → ∀ port movedFrom, result = some (.ok port movedFrom) →
    requested ≤ port ∧ port ≤ min (requested + 19) 65535 ∧ Usable log port ∧
      ∀ p, requested ≤ p → p < port → Unusable log p
  exhausted : policy = .next → result ≠ none →
    ((∃ first through, result = some (.exhausted first through)) ↔
      ∀ p, requested ≤ p → p ≤ min (requested + 19) 65535 → Unusable log p)
  evicts : ∀ port answer, ⟨.evict port, answer⟩ ∈ log →
    policy = .replace ∧ port = requested ∧
      ∃ rest, log = ⟨.probe requested, some Occupant.maximal⟩ :: ⟨.evict requested, answer⟩ :: rest
  probes : ∀ port answer, ⟨.probe port, answer⟩ ∈ log →
    requested ≤ port ∧ port ≤ min (requested + 19) 65535
  exclusive : ∀ port, Usable log port → ¬Unusable log port
  refused : ∀ resolution, result = some resolution → Refused requested policy log resolution
  throws : result = none → Threw log

theorem Scans.decides {requested : ℕ} {log : PortLog} {result : Option PortResolution}
    (h : Scans requested requested (scanThrough requested) log result) :
    Decides requested .next log result := by
  obtain ⟨hscanned, hfirst⟩ := h
  have hexclusive : ∀ port, Usable log port → ¬Unusable log port := fun _ =>
    not_usable_unusable hscanned.once
  refine ⟨?_, ?_, ?_, ?_, ?_, hexclusive, ?_, ?_⟩
  · rintro port movedFrom rfl
    exact .inl hfirst.2.2.2.1
  · rintro - port movedFrom rfl
    exact hfirst.2
  · rintro - hresult
    rcases result with _ | (⟨port, movedFrom⟩ | _ | ⟨f, t⟩ | _)
    · exact absurd rfl hresult
    · obtain ⟨-, hge, hthrough, husable, -⟩ := hfirst
      refine iff_of_false (by simp) fun hall => ?_
      exact hexclusive port husable (hall port hge hthrough)
    · exact hfirst.elim
    · exact iff_of_true ⟨f, t, rfl⟩ hfirst.2.2
    · exact hfirst.elim
  · intro port answer hmem
    exact absurd rfl (hscanned.spared _ hmem port)
  · intro port answer hmem
    exact hscanned.range _ hmem
  · rintro (_ | _ | ⟨f, t⟩ | _) rfl
    · trivial
    · exact hfirst.elim
    · exact ⟨rfl, hfirst.1, hfirst.2.1⟩
    · exact hfirst.elim
  · rintro rfl
    exact hfirst

/-- The questions of a resolution that does not look at other ports. -/
theorem decides_of_local {requested : ℕ} {policy : PortPolicy} {log : PortLog}
    {result : Option PortResolution} (hpolicy : policy ≠ .next)
    (hle : requested ≤ scanThrough requested) (honce : (log.map Sigma.fst).Nodup)
    (hport : ∀ e ∈ log, e.1.port = requested)
    (hok : ∀ port movedFrom, result = some (.ok port movedFrom) →
      Usable log port ∨ policy = .replace ∧ port = requested ∧ Evicted log requested)
    (hevicts : ∀ answer, ⟨.evict requested, answer⟩ ∈ log → policy = .replace ∧
      ∃ rest, log =
        ⟨.probe requested, some Occupant.maximal⟩ :: ⟨.evict requested, answer⟩ :: rest)
    (hrefused : ∀ resolution, result = some resolution → Refused requested policy log resolution)
    (hthrows : result = none → Threw log) : Decides requested policy log result := by
  refine ⟨hok, fun hnext => absurd hnext hpolicy, fun hnext => absurd hnext hpolicy, ?_, ?_,
    fun _ => not_usable_unusable honce, hrefused, hthrows⟩
  · intro port answer hmem
    obtain rfl : port = requested := hport _ hmem
    exact ⟨(hevicts answer hmem).1, rfl, (hevicts answer hmem).2⟩
  · intro port answer hmem
    obtain rfl : port = requested := hport _ hmem
    exact ⟨le_rfl, hle⟩

/-- A resolution that asks no more than who answers on the port and whether it can be bound. -/
theorem decides_of_tested {requested : ℕ} {policy : PortPolicy} {log : PortLog}
    {result : Option PortResolution} (hpolicy : policy ≠ .next)
    (hle : requested ≤ scanThrough requested) {occupant : Option Occupant}
    (hlog : log = [⟨.probe requested, occupant⟩] ∨
      ∃ bound, log = [⟨.probe requested, occupant⟩, ⟨.bindable requested, bound⟩])
    (hok : ∀ port movedFrom, result = some (.ok port movedFrom) → Usable log port)
    (hrefused : ∀ resolution, result = some resolution → Refused requested policy log resolution)
    (hthrows : result = none → Threw log) : Decides requested policy log result := by
  refine decides_of_local hpolicy hle ?_ ?_ (fun port movedFrom h => .inl (hok port movedFrom h))
    (fun answer hmem => ?_) hrefused hthrows
  · obtain rfl | ⟨bound, rfl⟩ := hlog <;> simp
  · obtain rfl | ⟨bound, rfl⟩ := hlog <;> simp [PortQuestion.port]
  · have hasked := List.mem_map_of_mem (f := Sigma.fst) hmem
    obtain rfl | ⟨bound, rfl⟩ := hlog <;> simp at hasked

/-- A maximal on the requested port is evicted, and the port is tested again. -/
theorem evict_wp {requested : ℕ} (hle : requested ≤ scanThrough requested) :
    (resolveConflict requested .maximal .replace).wp fun log result =>
      Decides requested .replace (⟨.probe requested, some Occupant.maximal⟩ :: log) result := by
  have hlocal {log : PortLog} {result : Option PortResolution}
      (hlog : log = [⟨.evict requested, none⟩] ∨
        ∃ bound, log = [⟨.evict requested, some ()⟩, ⟨.bindable requested, bound⟩])
      (hok : ∀ port movedFrom, result = some (.ok port movedFrom) →
        port = requested ∧ log = [⟨.evict requested, some ()⟩, ⟨.bindable requested, some true⟩])
      (hrefused : ∀ resolution, result = some resolution → Refused requested .replace
        (⟨.probe requested, some Occupant.maximal⟩ :: log) resolution)
      (hthrows : result = none → Threw (⟨.probe requested, some Occupant.maximal⟩ :: log)) :
      Decides requested .replace (⟨.probe requested, some Occupant.maximal⟩ :: log) result := by
    refine decides_of_local (by decide) hle ?_ ?_ ?_ ?_ hrefused hthrows
    · obtain rfl | ⟨bound, rfl⟩ := hlog <;> simp
    · obtain rfl | ⟨bound, rfl⟩ := hlog <;> simp [PortQuestion.port]
    · intro port movedFrom hport
      obtain ⟨rfl, rfl⟩ := hok port movedFrom hport
      exact .inr ⟨rfl, rfl, rfl⟩
    · obtain rfl | ⟨bound, rfl⟩ := hlog <;> simp
  refine ⟨?_, fun _ => ⟨?_, fun bound => ?_⟩⟩
  · exact hlocal (.inl rfl) nofun nofun fun _ => ⟨_, List.mem_cons_of_mem _ List.mem_cons_self⟩
  · exact hlocal (.inr ⟨none, rfl⟩) nofun nofun fun _ =>
      ⟨_, List.mem_cons_of_mem _ (List.mem_cons_of_mem _ List.mem_cons_self)⟩
  · cases bound with
    | false =>
      refine hlocal (.inr ⟨some false, rfl⟩) nofun (fun resolution hresolution => ?_) nofun
      obtain rfl := Option.some.inj hresolution
      exact ⟨rfl, rfl, List.mem_cons_of_mem _ (List.mem_cons_of_mem _ List.mem_cons_self)⟩
    | true =>
      refine hlocal (.inr ⟨some true, rfl⟩) (fun port movedFrom hport => ?_)
        (fun resolution hresolution => ?_) nofun
      · obtain ⟨rfl, -⟩ := PortResolution.ok.inj (Option.some.inj hport)
        exact ⟨rfl, rfl⟩
      · obtain rfl := Option.some.inj hresolution
        trivial

/-- Under the other policies only the requested port is asked about. -/
theorem resolvePort_local_wp {requested : ℕ} (hpos : requested ≠ 0) (h : requested ≤ MAX_PORT)
    {policy : PortPolicy} (hpolicy : policy ≠ .next) :
    (resolvePort requested policy).wp (Decides requested policy) := by
  have hle := le_scanThrough h
  have hbusy (occupant : Occupant) (hne : occupant ≠ .free) (holder : Holder) :
      Decides requested policy [⟨.probe requested, some occupant⟩]
        (some (.busy requested holder)) := by
    refine decides_of_tested hpolicy hle (.inl rfl) nofun ?_ nofun
    rintro resolution hresolution
    obtain rfl := Option.some.inj hresolution
    exact ⟨hpolicy, rfl, .inl ⟨occupant, hne, List.mem_cons_self⟩⟩
  have hheld : Decides requested policy
      [⟨.probe requested, some Occupant.free⟩, ⟨.bindable requested, some false⟩]
      (some (.busy requested .other)) := by
    refine decides_of_tested hpolicy hle (.inr ⟨_, rfl⟩) nofun ?_ nofun
    rintro resolution hresolution
    obtain rfl := Option.some.inj hresolution
    exact ⟨hpolicy, rfl, .inr (List.mem_cons_of_mem _ List.mem_cons_self)⟩
  rw [resolvePort, if_neg hpos]
  refine ⟨?_, fun occupant => ?_⟩
  · exact decides_of_tested hpolicy hle (.inl rfl) nofun nofun fun _ => ⟨_, List.mem_cons_self⟩
  cases occupant with
  | free =>
    refine ⟨?_, fun bound => ?_⟩
    · exact decides_of_tested hpolicy hle (.inr ⟨none, rfl⟩) nofun nofun fun _ =>
        ⟨_, List.mem_cons_of_mem _ List.mem_cons_self⟩
    cases bound with
    | true =>
      refine decides_of_tested hpolicy hle (.inr ⟨some true, rfl⟩) (fun port movedFrom hport => ?_)
        (fun resolution hresolution => ?_) nofun
      · obtain ⟨rfl, -⟩ := PortResolution.ok.inj (Option.some.inj hport)
        exact ⟨List.mem_cons_self, List.mem_cons_of_mem _ List.mem_cons_self⟩
      · obtain rfl := Option.some.inj hresolution
        trivial
    | false =>
      cases policy with
      | fail => exact hheld
      | replace => exact hheld
      | next => exact absurd rfl hpolicy
  | other =>
    cases policy with
    | fail => exact hbusy .other (by decide) .other
    | replace => exact hbusy .other (by decide) .other
    | next => exact absurd rfl hpolicy
  | maximal =>
    cases policy with
    | fail => exact hbusy .maximal (by decide) .maximal
    | next => exact absurd rfl hpolicy
    | replace => exact evict_wp hle

/-- However the machine answers, a port that is found was usable, or could be bound after an
eviction; the scan finds the first usable port, or tells that there is none; nothing else is
evicted or probed; and no port is found only if the requested one is unusable or a question
threw. -/
theorem resolvePort_decides (behaviour : Inquiry.Behaviour PortQuestion PortQuestion.Answer)
    {requested : ℕ} (hpos : 1 ≤ requested) (hmax : requested ≤ 65535) (policy : PortPolicy) :
    Decides requested policy ((resolvePort requested policy).run behaviour []).1
      ((resolvePort requested policy).run behaviour []).2 := by
  have hne : requested ≠ 0 := Nat.one_le_iff_ne_zero.1 hpos
  refine Inquiry.run_wp_nil ?_ behaviour
  by_cases hnext : policy = .next
  · subst hnext
    exact Inquiry.wp_mono (resolvePort_next_wp hne hmax) fun log result h => h.decides
  · exact resolvePort_local_wp hne hmax hnext

/-- Somebody answers on every even port, and 4143 cannot be bound. -/
def crowded : Inquiry.Behaviour PortQuestion PortQuestion.Answer := fun _ question =>
  match question with
  | .probe port => some (if port % 2 = 0 then Occupant.other else Occupant.free)
  | .bindable port => some (decide (port ≠ 4143) : Bool)
  | .evict _ => some ()

example : ((resolvePort 4142 .next).run crowded []).2 = some (.ok 4145 (some 4142)) := by decide

theorem resolvePort_decides_crowded :
    Decides 4142 .next ((resolvePort 4142 .next).run crowded []).1
      ((resolvePort 4142 .next).run crowded []).2 :=
  resolvePort_decides crowded (by decide) (by decide) .next

end Maximal.Start
