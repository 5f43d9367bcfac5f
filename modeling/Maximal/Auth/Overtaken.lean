import Maximal.Auth.TokenWrites
import Maximal.Lib.Runs
import Mathlib.Data.List.InsertIdx

/-!
# Requests that a write has overtaken

A request is overtaken when the GitHub token changes between the request and its answer. The machine
does not remember this: a record of the run does, for the functions that are suspended and for the
bearer.

## Main definitions

- `Ledger`, `Ledger.next`
- `Ledger.Keeps` — a request that was not overtaken carries the current GitHub token

## Main results

- `Ledger.Keeps.step`
-/

namespace Maximal.Auth

variable {r r' : Runtime} {l : Label}

/-- Does the step replace the GitHub token by another one? -/
def Label.changesToken (l : Label) (r : Runtime) : Bool :=
  (l.write? r).any fun write => write.token ≠ r.githubToken

theorem githubToken_of_not_changesToken (h : l.changesToken r = false)
    (hstep : step l r = some r') : r'.githubToken = r.githubToken := by
  have hgithub := (step_tokens hstep).githubToken
  unfold Label.changesToken at h
  cases hwrite : l.write? r with
  | none =>
    rw [hwrite] at hgithub
    exact hgithub
  | some write =>
    rw [hwrite] at hgithub h
    exact hgithub.trans (of_not_not (of_decide_eq_false h))

structure Ledger where
  /-- The suspended functions. Has the GitHub token changed since they were? -/
  suspended : List (Task × Bool)
  /-- Has the GitHub token changed since the bearer was asked for? -/
  staleBearer : Bool
  deriving DecidableEq, Repr

namespace Ledger

/-- At the start, a request that carries another token counts as overtaken. -/
def start (r : Runtime) : Ledger where
  suspended := r.tasks.map fun task => (task, task.sent?.any (· ≠ r.githubToken))
  staleBearer := ¬ Coherent r

/-- Was the request overtaken whose answer the step brings? -/
def overtaken (l : Label) (ledger : Ledger) : Bool :=
  match l.event with
  | .resume i _ => ledger.suspended[i]?.any (·.2)
  | _ => false

/-- A change of the token overtakes the functions that are suspended. -/
def next (l : Label) (r r' : Runtime) (ledger : Ledger) : Ledger where
  suspended :=
    (l.others ledger.suspended).map (fun e => (e.1, e.2 || l.changesToken r)) ++
      (r'.tasks.drop (l.others r.tasks).length).map (·, false)
  staleBearer :=
    r'.copilotToken.isSome &&
      if r'.copilotToken = r.copilotToken then ledger.staleBearer || l.changesToken r
      else (l.minted? r).isSome && ledger.overtaken l

/-- What has not been overtaken is of the current token. -/
structure Keeps (r : Runtime) (ledger : Ledger) : Prop where
  tasks : ledger.suspended.map (·.1) = r.tasks
  fresh : ∀ e ∈ ledger.suspended, e.2 = false → ∀ sentWith ∈ e.1.sent?, sentWith = r.githubToken
  bearer : ledger.staleBearer = false → Coherent r

variable {ledger : Ledger}

theorem Keeps.start (r : Runtime) : Keeps r (start r) where
  tasks := by simp [Ledger.start, Function.comp_def]
  fresh e hmem hfresh sentWith hsent := by
    obtain ⟨task, -, rfl⟩ := List.mem_map.1 hmem
    dsimp only at hfresh hsent
    rw [Option.mem_def.1 hsent, Option.any_some] at hfresh
    exact of_not_not (of_decide_eq_false hfresh)
  bearer hfresh := of_not_not (of_decide_eq_false hfresh)

/-- The function that is resumed, with its entry. -/
theorem Keeps.entry (h : Keeps r ledger) {i : ℕ} {task : Task} (htask : r.tasks[i]? = some task) :
    ∃ overtaken, ledger.suspended[i]? = some (task, overtaken) := by
  rw [← h.tasks, List.getElem?_map] at htask
  obtain ⟨⟨task, overtaken⟩, hget, rfl⟩ := Option.map_eq_some_iff.1 htask
  exact ⟨overtaken, hget⟩

theorem map_others {α β : Type} (l : Label) (f : α → β) (xs : List α) :
    (l.others xs).map f = l.others (xs.map f) := by
  unfold Label.others
  split
  · exact (List.eraseIdx_map f xs _).symm
  · rfl

theorem mem_of_mem_others {α : Type} {xs : List α} {x : α} (h : x ∈ l.others xs) : x ∈ xs := by
  unfold Label.others at h
  split at h
  · exact List.mem_of_mem_eraseIdx h
  · exact h

/-- A bearer that stays is of the current token as long as the token stays. -/
theorem Keeps.coherent_of_kept (h : Keeps r ledger)
    (hstep : step l r = some r')
    (hkept : r'.copilotToken = r.copilotToken) (hfresh : (ledger.next l r r').staleBearer = false) :
    Coherent r' := by
  cases hbearer : r'.copilotToken with
  | none => exact coherent_of_none hbearer
  | some bearer =>
    rw [next, if_pos hkept, hbearer] at hfresh
    obtain ⟨hstale, hsame⟩ := Bool.or_eq_false_iff.1 hfresh
    exact (h.bearer hstale).of_eq (githubToken_of_not_changesToken hsame hstep) hkept

/-- A bearer that arrives is of the current token where its request was not overtaken. -/
theorem Keeps.sentWith_of_minted (h : Keeps r ledger) {sentWith : Option String}
    (hminted : sentWith ∈ l.minted? r) (hfresh : ledger.overtaken l = false) :
    sentWith = r.githubToken := by
  unfold Label.minted? at hminted
  split at hminted
  · next i answer hevent =>
    have hsent := Answer.sent_of_mints hminted
    obtain ⟨task, htask, hsent⟩ := Option.bind_eq_some_iff.1 hsent
    obtain ⟨isOvertaken, hentry⟩ := h.entry htask
    simp only [overtaken, hevent, hentry, Option.any_some] at hfresh
    exact h.fresh _ (List.mem_of_getElem? hentry) hfresh sentWith hsent
  · cases hminted

theorem Keeps.step (h : Keeps r ledger) (hstep : step l r = some r') :
    Keeps r' (ledger.next l r r') := by
  have heffect := step_tokens hstep
  obtain ⟨new, htasks, hnew⟩ := heffect.tasks
  have htasks : r'.tasks = l.others r.tasks ++ new := htasks
  have hdrop : r'.tasks.drop (l.others r.tasks).length = new := by
    rw [htasks]
    exact List.drop_left
  refine ⟨?_, ?_, ?_⟩
  · rw [next, List.map_append, List.map_map, List.map_map, hdrop, htasks, ← h.tasks, ← map_others]
    simp [Function.comp_def]
  · intro e hmem hfresh
    rw [next, hdrop] at hmem
    rcases List.mem_append.1 hmem with hold | hlate
    · obtain ⟨before, hbefore, rfl⟩ := List.mem_map.1 hold
      obtain ⟨hbeforeFresh, hsame⟩ := Bool.or_eq_false_iff.1 hfresh
      rw [githubToken_of_not_changesToken hsame hstep]
      exact h.fresh before (mem_of_mem_others hbefore) hbeforeFresh
    · obtain ⟨task, htask, rfl⟩ := List.mem_map.1 hlate
      exact hnew task htask
  · intro hfresh
    by_cases hkept : r'.copilotToken = r.copilotToken
    · exact h.coherent_of_kept hstep hkept hfresh
    · rcases heffect.bearer with hkept' | hcoherent | ⟨sentWith, hminted, hbearer⟩
      · exact absurd hkept' hkept
      · exact hcoherent
      · cases htoken : r'.copilotToken with
        | none => exact coherent_of_none htoken
        | some bearer =>
          rw [next, if_neg hkept, htoken, hminted] at hfresh
          have hcurrent := h.sentWith_of_minted hminted hfresh
          have hsame : l.changesToken r = false := by
            rw [Label.changesToken, Label.write?_of_minted hminted, Option.any_none]
          have hgithub := githubToken_of_not_changesToken hsame hstep
          have hmintedWith := (hbearer bearer htoken).trans (hcurrent.trans hgithub.symm)
          exact coherent_of_minted htoken hmintedWith

end Ledger

end Maximal.Auth
