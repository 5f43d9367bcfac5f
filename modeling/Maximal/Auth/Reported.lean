import Maximal.Auth.Overtaken
import Maximal.Auth.Traced

/-!
# Reported errors

A completion carries the bearer that is held when it is sent; its error is reported later, maybe in
another session. Here a report says how many states ago its completion was sent, and a record of the
run tells which GitHub token its bearer was minted with.

## Main definitions

- `Reported`, `reportedStep`
- `Reported.Keeps` — a completion that was not overtaken is of the current GitHub token

## Main results

- `exists_reported` — every run of the machine is one of reports
- `Reported.Keeps.step`
-/

namespace Maximal.Auth

structure Completion where
  /-- The GitHub token that its bearer was minted with. -/
  token : Option String
  /-- Has the GitHub token changed since that bearer was asked for? -/
  overtaken : Bool
  deriving DecidableEq, Repr

/-- The completion that is sent with the bearer that is held. -/
def Ledger.completion (r : Runtime) (ledger : Ledger) : Option Completion :=
  r.copilotToken.map fun bearer => ⟨bearer.mintedWith, ledger.staleBearer⟩

structure ReportedLabel extends Label where
  /-- How many states ago the completion was sent whose error is reported. -/
  ago : ℕ := 0
  deriving DecidableEq, Repr

structure Reported where
  traced : Traced
  ledger : Ledger
  /-- A completion for every state, the latest first; none where no bearer was held. -/
  completions : List (Option Completion)
  deriving DecidableEq, Repr

variable {s s' : Reported} {l : ReportedLabel}

/-- The completion whose error is reported. -/
def ReportedLabel.completion? (l : ReportedLabel) (s : Reported) : Option Completion :=
  s.completions[l.ago]?.join

def ReportedLabel.traced (l : ReportedLabel) (s : Reported) : TracedLabel :=
  { l.toLabel with carried := (l.completion? s).bind (·.token) }

/-- An error is reported for a completion that was sent. -/
def ReportedLabel.isSent (l : ReportedLabel) (s : Reported) : Bool :=
  match l.event with
  | .call (.markAuthDegraded _) => (l.completion? s).isSome
  | _ => true

namespace Reported

/-- Completions with these GitHub tokens are under way at the start. -/
def start (r : Runtime) (underway : List (Option String)) : Reported where
  traced := .start r
  ledger := .start r
  completions :=
    (Ledger.start r).completion r :: underway.map fun token => some ⟨token, token ≠ r.githubToken⟩

/-- A change of the token overtakes the completions that were sent. -/
def next (l : ReportedLabel) (s : Reported) (t' : Traced) : Reported :=
  let ledger := s.ledger.next l.toLabel s.traced.runtime t'.runtime
  { traced := t'
    ledger
    completions := ledger.completion t'.runtime ::
      s.completions.map (Option.map fun completion =>
        { completion with
          overtaken := completion.overtaken || l.changesToken s.traced.runtime }) }

end Reported

def reportedStep (l : ReportedLabel) (s : Reported) : Option Reported :=
  if l.isSent s then (tracedStep (l.traced s) s.traced).map (s.next l) else none

theorem reportedStep_cases (h : reportedStep l s = some s') :
    l.isSent s = true ∧ tracedStep (l.traced s) s.traced = some s'.traced ∧
      s' = s.next l s'.traced := by
  unfold reportedStep at h
  split at h
  · next hsent =>
    obtain ⟨t', hstep, rfl⟩ := Option.map_eq_some_iff.1 h
    exact ⟨hsent, hstep, rfl⟩
  · cases h

/-- The record changes nothing: where some completion has been sent, every run of the machine is one
of reports. -/
theorem exists_reported {labels : List Label} {r' : Runtime} {i : ℕ} {completion : Completion}
    (hgenuine : ∀ l ∈ labels, l.isGenuine = true)
    (hsent : s.completions[i]? = some (some completion))
    (h : Runs.exec step labels s.traced.runtime = some r') :
    ∃ labels' s', labels'.map ReportedLabel.toLabel = labels ∧
      Runs.exec reportedStep labels' s = some s' ∧ s'.traced.runtime = r' := by
  induction labels generalizing s i completion with
  | nil => exact ⟨[], s, rfl, rfl, Option.some.inj h⟩
  | cons l labels ih =>
    obtain ⟨t, hstep, hexec⟩ := Option.bind_eq_some_iff.1 h
    let report : ReportedLabel := { l with ago := i }
    have hcompletion : report.completion? s = some completion := by
      rw [ReportedLabel.completion?, hsent, Option.join_some]
    have hreport : report.isSent s = true := by
      unfold ReportedLabel.isSent
      split
      · rw [hcompletion, Option.isSome_some]
      · rfl
    obtain ⟨t', htraced, rfl⟩ :
        ∃ t', tracedStep (report.traced s) s.traced = some t' ∧ t'.runtime = t := by
      have hl : (report.traced s).isGenuine = true := hgenuine l List.mem_cons_self
      refine ⟨⟨t, s.traced.retag (report.traced s) t, s.traced.held ++ t.registry.holdings⟩, ?_, rfl⟩
      rw [tracedStep, if_pos hl]
      exact congrArg (Option.map _) hstep
    have hnext : (s.next report t').completions[i + 1]? =
        some (some { completion with
          overtaken := completion.overtaken || report.changesToken s.traced.runtime }) := by
      show (List.map _ s.completions)[i]? = _
      rw [List.getElem?_map, hsent]
      rfl
    obtain ⟨labels', s', hlabels, hrun, hs'⟩ :=
      ih (fun l hl => hgenuine l (List.mem_cons_of_mem _ hl)) hnext hexec
    refine ⟨report :: labels', s', by rw [List.map_cons, hlabels], ?_, hs'⟩
    rw [Runs.exec, reportedStep, if_pos hreport, htraced]
    exact hrun

theorem Ledger.Keeps.completion {r : Runtime} {ledger : Ledger} (h : ledger.Keeps r)
    {completion : Completion} (hcompletion : ledger.completion r = some completion)
    (hfresh : completion.overtaken = false) : completion.token = r.githubToken := by
  obtain ⟨bearer, hbearer, rfl⟩ := Option.map_eq_some_iff.1 hcompletion
  exact h.bearer hfresh bearer hbearer

namespace Reported

structure Keeps (s : Reported) : Prop where
  ledger : s.ledger.Keeps s.traced.runtime
  completions : ∀ completion, some completion ∈ s.completions → completion.overtaken = false →
    completion.token = s.traced.runtime.githubToken

theorem Keeps.start (r : Runtime) (underway : List (Option String)) : Keeps (start r underway) where
  ledger := .start r
  completions completion hmem hfresh := by
    rcases List.mem_cons.1 hmem with hlast | hunderway
    · exact (Ledger.Keeps.start r).completion hlast.symm hfresh
    · obtain ⟨token, -, hcompletion⟩ := List.mem_map.1 hunderway
      cases hcompletion
      exact of_not_not (of_decide_eq_false hfresh)

theorem Keeps.step (h : Keeps s) (hstep : reportedStep l s = some s') : Keeps s' := by
  obtain ⟨-, htraced, hs'⟩ := reportedStep_cases hstep
  generalize s'.traced = t' at htraced hs'
  subst hs'
  have hrun : Auth.step l.toLabel s.traced.runtime = some t'.runtime := tracedStep_runtime htraced
  refine ⟨h.ledger.step hrun, fun completion hmem hfresh => ?_⟩
  rcases List.mem_cons.1 hmem with hlast | hearlier
  · exact (h.ledger.step hrun).completion hlast.symm hfresh
  · obtain ⟨before, hbefore, hcompletion⟩ := List.mem_map.1 hearlier
    obtain ⟨before, rfl, rfl⟩ := Option.map_eq_some_iff.1 hcompletion
    obtain ⟨hbeforeFresh, hsame⟩ := Bool.or_eq_false_iff.1 hfresh
    exact (h.completions before hbefore hbeforeFresh).trans
      (githubToken_of_not_changesToken hsame hrun).symm

end Reported

end Maximal.Auth
