import Mathlib.Data.List.Basic

/-!
# Programs that ask

A program that asks its surroundings a question at a time; how it goes on depends on the answer.
Nothing is assumed of the answers: they may change from one time to the next, and a question may
fail, which ends the program without a result.

## Main definitions

- `Inquiry` — the tree of questions
- `Inquiry.run` — the questions that are asked and the result, for surroundings that answer
  depending on everything that was asked before
- `Inquiry.wp` — what holds of questions and result whatever the answers are
- `Inquiry.Watched` — the same for an observer who keeps a state and judges each question

## Main results

- `Inquiry.run_wp` — it holds of every run
- `Inquiry.watched_bind`, `Inquiry.run_watched`
- `Inquiry.run_answered` — every answer of a run is that of the surroundings
-/

inductive Inquiry (Q : Type) (A : Q → Type) (α : Type) : Type where
  | done (a : α)
  | ask (q : Q) (next : A q → Inquiry Q A α)

namespace Inquiry

variable {Q : Type} {A : Q → Type} {α β : Type}

protected def bind : Inquiry Q A α → (α → Inquiry Q A β) → Inquiry Q A β
  | .done a, f => f a
  | .ask q next, f => .ask q fun a => (next a).bind f

instance : Monad (Inquiry Q A) where
  pure := .done
  bind := Inquiry.bind

/-- The question alone. -/
def question (q : Q) : Inquiry Q A (A q) := .ask q .done

/-- The questions in the order they were asked, each with its answer unless it failed. -/
abbrev Log (Q : Type) (A : Q → Type) : Type := List ((q : Q) × Option (A q))

/-- How the surroundings answer, given all that was asked before. -/
abbrev Behaviour (Q : Type) (A : Q → Type) : Type := Log Q A → (q : Q) → Option (A q)

def run (behaviour : Behaviour Q A) : Inquiry Q A α → Log Q A → Log Q A × Option α
  | .done a, log => (log, some a)
  | .ask q next, log =>
    match behaviour log q with
    | none => (log ++ [⟨q, none⟩], none)
    | some a => (next a).run behaviour (log ++ [⟨q, some a⟩])

/-- Whatever the answers, `P` holds of the questions asked and the result. -/
def wp (P : Log Q A → Option α → Prop) : Inquiry Q A α → Prop
  | .done a => P [] (some a)
  | .ask q next =>
    P [⟨q, none⟩] none ∧ ∀ a, (next a).wp fun log result => P (⟨q, some a⟩ :: log) result

variable {P R : Log Q A → Option α → Prop}

theorem wp_mono {p : Inquiry Q A α} (h : p.wp P) (hPR : ∀ log result, P log result → R log result) :
    p.wp R := by
  induction p generalizing P R with
  | done a => exact hPR _ _ h
  | ask q next ih => exact ⟨hPR _ _ h.1, fun a => ih a (h.2 a) fun log result => hPR _ _⟩

/-- What holds whatever the answers are holds of every run. -/
theorem run_wp {p : Inquiry Q A α} (h : p.wp P) (behaviour : Behaviour Q A) (log : Log Q A) :
    ∃ asked, (p.run behaviour log).1 = log ++ asked ∧ P asked (p.run behaviour log).2 := by
  induction p generalizing P log with
  | done a => exact ⟨[], (List.append_nil log).symm, h⟩
  | ask q next ih =>
    rw [run]
    cases behaviour log q with
    | none => exact ⟨[⟨q, none⟩], rfl, h.1⟩
    | some a =>
      obtain ⟨asked, hlog, hP⟩ := ih a (h.2 a) (log ++ [⟨q, some a⟩])
      refine ⟨⟨q, some a⟩ :: asked, ?_, hP⟩
      rw [hlog, List.append_assoc, List.singleton_append]

/-- A run from the empty log. -/
theorem run_wp_nil {p : Inquiry Q A α} (h : p.wp P) (behaviour : Behaviour Q A) :
    P (p.run behaviour []).1 (p.run behaviour []).2 := by
  obtain ⟨asked, hlog, hP⟩ := run_wp h behaviour []
  rwa [hlog, List.nil_append]

/-! ## Observers -/

section Watched

variable {σ : Type} (observe : σ → (q : Q) × Option (A q) → σ)
  (ok : σ → (q : Q) × Option (A q) → Prop)

/-- The observer finds nothing wrong with the questions. -/
def Accepts : σ → Log Q A → Prop
  | _, [] => True
  | s, e :: log => ok s e ∧ Accepts (observe s e) log

/-- Whatever the answers, the observer finds nothing wrong, and `post` holds of what it has seen and
the result. -/
def Watched (post : σ → Option α → Prop) : Inquiry Q A α → σ → Prop
  | .done a, s => post s (some a)
  | .ask q next, s =>
    (ok s ⟨q, none⟩ ∧ post (observe s ⟨q, none⟩) none) ∧
      ∀ a, ok s ⟨q, some a⟩ ∧ (next a).Watched post (observe s ⟨q, some a⟩)

variable {observe ok} {s : σ}

theorem watched_mono {post post' : σ → Option α → Prop} {p : Inquiry Q A α}
    (h : p.Watched observe ok post s) (hpost : ∀ s result, post s result → post' s result) :
    p.Watched observe ok post' s := by
  induction p generalizing s with
  | done a => exact hpost _ _ h
  | ask q next ih =>
    exact ⟨⟨h.1.1, hpost _ _ h.1.2⟩, fun a => ⟨(h.2 a).1, ih a (h.2 a).2⟩⟩

/-- What is left for the second program: it starts where the first one ends. -/
theorem watched_bind {post : σ → Option β → Prop} {p : Inquiry Q A α} {f : α → Inquiry Q A β}
    (h : p.Watched observe ok (fun s result =>
      match result with
      | none => post s none
      | some a => (f a).Watched observe ok post s) s) :
    (p.bind f).Watched observe ok post s := by
  induction p generalizing s with
  | done a => exact h
  | ask q next ih => exact ⟨h.1, fun a => ⟨(h.2 a).1, ih a (h.2 a).2⟩⟩

theorem run_watched {post : σ → Option α → Prop} {p : Inquiry Q A α}
    (h : p.Watched observe ok post s) (behaviour : Behaviour Q A) (log : Log Q A) :
    ∃ asked, (p.run behaviour log).1 = log ++ asked ∧ Accepts observe ok s asked ∧
      post (asked.foldl observe s) (p.run behaviour log).2 := by
  induction p generalizing s log with
  | done a => exact ⟨[], (List.append_nil log).symm, trivial, h⟩
  | ask q next ih =>
    rw [run]
    cases behaviour log q with
    | none => exact ⟨[⟨q, none⟩], rfl, ⟨h.1.1, trivial⟩, h.1.2⟩
    | some a =>
      obtain ⟨asked, hlog, haccepts, hpost⟩ := ih a (h.2 a).2 (log ++ [⟨q, some a⟩])
      refine ⟨⟨q, some a⟩ :: asked, ?_, ⟨(h.2 a).1, haccepts⟩, hpost⟩
      rw [hlog, List.append_assoc, List.singleton_append]

end Watched

theorem run_extends (p : Inquiry Q A α) (behaviour : Behaviour Q A) (log : Log Q A) :
    ∃ asked, (p.run behaviour log).1 = log ++ asked := by
  induction p generalizing log with
  | done a => exact ⟨[], (List.append_nil log).symm⟩
  | ask q next ih =>
    rw [run]
    cases behaviour log q with
    | none => exact ⟨[⟨q, none⟩], rfl⟩
    | some a =>
      obtain ⟨asked, hlog⟩ := ih a (log ++ [⟨q, some a⟩])
      exact ⟨⟨q, some a⟩ :: asked, by rw [hlog, List.append_assoc, List.singleton_append]⟩

/-- A question of a run is answered by the surroundings, given what was asked before it. -/
theorem run_answered (p : Inquiry Q A α) (behaviour : Behaviour Q A) (log : Log Q A) {i : ℕ}
    {q : Q} {a : Option (A q)} (hi : log.length ≤ i)
    (h : (p.run behaviour log).1[i]? = some ⟨q, a⟩) :
    ∃ asked : Log Q A, asked.length = i ∧ behaviour asked q = a := by
  induction p generalizing log with
  | done b =>
    rw [run, List.getElem?_eq_none hi] at h
    cases h
  | ask q' next ih =>
    -- the first question is the entry behind the log
    have hfirst : ∀ asked : Log Q A,
        (log ++ [⟨q', behaviour log q'⟩] ++ asked)[log.length]? = some ⟨q, a⟩ →
        behaviour log q = a := by
      intro asked hentry
      rw [List.append_assoc, List.getElem?_append_right (Nat.le_refl _), Nat.sub_self] at hentry
      cases hentry
      rfl
    rw [run] at h
    obtain hlt | heq := Nat.lt_or_eq_of_le hi
    · cases hb : behaviour log q' with
      | none =>
        rw [hb] at h
        have hend : (log ++ [⟨q', none⟩] : Log Q A).length ≤ i := by
          rw [List.length_append]
          exact hlt
        rw [List.getElem?_eq_none hend] at h
        cases h
      | some b =>
        rw [hb] at h
        refine ih b (log ++ [⟨q', some b⟩]) ?_ h
        rw [List.length_append]
        exact hlt
    · subst heq
      refine ⟨log, rfl, ?_⟩
      cases hb : behaviour log q' with
      | none =>
        rw [hb] at h hfirst
        exact hfirst [] (by rwa [List.append_nil])
      | some b =>
        rw [hb] at h hfirst
        obtain ⟨asked, hlog⟩ := run_extends (next b) behaviour (log ++ [⟨q', some b⟩])
        exact hfirst asked (hlog ▸ h)

end Inquiry
