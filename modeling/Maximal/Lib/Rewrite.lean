import Maximal.Lib.Runs
import Mathlib.Data.List.Perm.Basic

/-!
# Concurrent rewrites of one file

Every call reads the file, computes what to write from what it read, and writes it by way of one
temporary file that all calls share. A call awaits the read, the write and the rename; the others
go on meanwhile.

## Main definitions

- `Rewrite.Store`, `Rewrite.settle` — one await of one call settles
- `Rewrite.update` — what a call does alone
- `Rewrite.Undisturbed` — a call that renames finds what it has written, over what it has read

## Main results

- `Rewrite.serial_of_exec` — undisturbed calls have the effect of calls made one after another
-/

namespace Rewrite

variable {ρ α : Type}

inductive Point (ρ : Type) where
  | reading
  | writing (read next : ρ)
  | replacing (read next : ρ)
  | returned
  /-- The temporary file was gone. -/
  | failed
  deriving DecidableEq, Repr

structure Store (ρ α : Type) where
  /-- What reading the file gives. -/
  file : ρ
  tmp : Option ρ := none
  calls : List (α × Point ρ)
  deriving DecidableEq, Repr

def start (file : ρ) (calls : List α) : Store ρ α where
  file := file
  calls := calls.map fun a => (a, .reading)

variable (apply : ρ → α → Option ρ)

/-- What a call does to the file while no other call is under way. -/
def update (file : ρ) (a : α) : ρ := (apply file a).getD file

/-- A call that has nothing to write returns once it has read. -/
def afterRead (file : ρ) (a : α) : Point ρ :=
  match apply file a with
  | some next => .writing file next
  | none => .returned

/-- The await of the `i`-th call settles. -/
def settle (i : ℕ) (s : Store ρ α) : Option (Store ρ α) :=
  match s.calls[i]? with
  | some (a, .reading) => some { s with calls := s.calls.set i (a, afterRead apply s.file a) }
  | some (a, .writing read next) =>
    some { s with tmp := some next, calls := s.calls.set i (a, .replacing read next) }
  | some (a, .replacing _ _) =>
    match s.tmp with
    | some content => some ⟨content, none, s.calls.set i (a, .returned)⟩
    | none => some { s with calls := s.calls.set i (a, .failed) }
  | _ => none

/-- A call that renames finds what it has written, over what it has read. -/
def Point.Finds (s : Store ρ α) : Point ρ → Prop
  | .replacing read next => s.file = read ∧ s.tmp = some next
  | _ => True

instance [DecidableEq ρ] (s : Store ρ α) : (p : Point ρ) → Decidable (p.Finds s)
  | .replacing read next => inferInstanceAs (Decidable (s.file = read ∧ s.tmp = some next))
  | .reading | .writing _ _ | .returned | .failed => .isTrue trivial

/-- No other call comes between what the `i`-th call has read and what it renames. -/
def Undisturbed (i : ℕ) (s : Store ρ α) : Prop := ∀ c ∈ s.calls[i]?, c.2.Finds s

instance [DecidableEq ρ] (i : ℕ) (s : Store ρ α) : Decidable (Undisturbed i s) :=
  inferInstanceAs (Decidable (∀ c ∈ s.calls[i]?, c.2.Finds s))

def returnedCall (c : α × Point ρ) : Option α :=
  match c.2 with
  | .returned => some c.1
  | _ => none

def Store.returned (s : Store ρ α) : List α := s.calls.filterMap returnedCall

/-- Every call has returned or failed. -/
def Store.settled (s : Store ρ α) : Bool :=
  s.calls.all fun c => match c.2 with | .returned | .failed => true | _ => false

/-! ## The calls -/

variable {apply} {s s' : Store ρ α} {i : ℕ} {a : α} {p p' : Point ρ}

theorem set_split {calls : List (α × Point ρ)} (h : calls[i]? = some (a, p)) (p' : Point ρ) :
    ∃ before after, calls = before ++ (a, p) :: after ∧
      calls.set i (a, p') = before ++ (a, p') :: after := by
  obtain ⟨hlt, hget⟩ := List.getElem?_eq_some_iff.1 h
  refine ⟨calls.take i, calls.drop (i + 1), ?_, ?_⟩
  · rw [← hget, ← List.drop_eq_getElem_cons hlt, List.take_append_drop]
  · rw [List.set_eq_take_append_cons_drop, if_pos hlt]

theorem map_fst_set {calls : List (α × Point ρ)} (h : calls[i]? = some (a, p)) (p' : Point ρ) :
    (calls.set i (a, p')).map Prod.fst = calls.map Prod.fst := by
  obtain ⟨before, after, hcalls, hset⟩ := set_split h p'
  rw [hset, hcalls]
  simp

theorem returnedCall_eq_none (hp : p ≠ .returned) : returnedCall (a, p) = none := by
  cases p <;> first | exact absurd rfl hp | rfl

/-- A call that goes on adds nothing to those that have returned. -/
theorem returned_set (h : s.calls[i]? = some (a, p)) (hp : p ≠ .returned) (hp' : p' ≠ .returned)
    {file : ρ} {tmp : Option ρ} :
    Store.returned ⟨file, tmp, s.calls.set i (a, p')⟩ = s.returned := by
  obtain ⟨before, after, hcalls, hset⟩ := set_split h p'
  rw [Store.returned, Store.returned, hset, hcalls, List.filterMap_append, List.filterMap_append,
    List.filterMap_cons_none (returnedCall_eq_none hp),
    List.filterMap_cons_none (returnedCall_eq_none hp')]

theorem returned_set_returned (h : s.calls[i]? = some (a, p)) (hp : p ≠ .returned) {file : ρ}
    {tmp : Option ρ} :
    (s.returned ++ [a]).Perm (Store.returned ⟨file, tmp, s.calls.set i (a, .returned)⟩) := by
  obtain ⟨before, after, hcalls, hset⟩ := set_split h .returned
  have hdone : returnedCall (a, (.returned : Point ρ)) = some a := rfl
  rw [Store.returned, Store.returned, hset, hcalls, List.filterMap_append, List.filterMap_append,
    List.filterMap_cons_none (returnedCall_eq_none hp), List.filterMap_cons_some hdone,
    List.append_assoc]
  exact List.Perm.append_left _ List.perm_append_comm

/-! ## Serial effects -/

/-- What a call holds came from what it read. -/
def Point.Holds (apply : ρ → α → Option ρ) (a : α) : Point ρ → Prop
  | .writing read next | .replacing read next => apply read a = some next
  | .failed => False
  | _ => True

/-- The calls that have returned were made one after another, and the others have done nothing. -/
structure Serial (apply : ρ → α → Option ρ) (file : ρ) (calls : List α) (s : Store ρ α) :
    Prop where
  calls : s.calls.map Prod.fst = calls
  holds : ∀ c ∈ s.calls, c.2.Holds apply c.1
  order : ∃ order : List α, order.Perm s.returned ∧ s.file = order.foldl (update apply) file

variable {file : ρ} {calls : List α}

theorem Serial.holds_at (h : Serial apply file calls s) (hcall : s.calls[i]? = some (a, p)) :
    p.Holds apply a :=
  h.holds _ (List.mem_of_getElem? hcall)

theorem Serial.holds_set (h : Serial apply file calls s) (hholds : p'.Holds apply a) :
    ∀ c ∈ s.calls.set i (a, p'), c.2.Holds apply c.1 := by
  intro c hc
  rcases List.mem_or_eq_of_mem_set hc with hold | rfl
  · exact h.holds c hold
  · exact hholds

/-- A call goes on without an effect on the file. -/
theorem Serial.goesOn (h : Serial apply file calls s) (hcall : s.calls[i]? = some (a, p))
    (hp : p ≠ .returned) (hp' : p' ≠ .returned) (hholds : p'.Holds apply a) {tmp : Option ρ} :
    Serial apply file calls ⟨s.file, tmp, s.calls.set i (a, p')⟩ where
  calls := (map_fst_set hcall p').trans h.calls
  holds := h.holds_set hholds
  order := by
    rw [returned_set hcall hp hp']
    exact h.order

/-- A call takes its effect and returns. -/
theorem Serial.returns (h : Serial apply file calls s) (hcall : s.calls[i]? = some (a, p))
    (hp : p ≠ .returned) {tmp : Option ρ} :
    Serial apply file calls ⟨update apply s.file a, tmp, s.calls.set i (a, .returned)⟩ where
  calls := (map_fst_set hcall _).trans h.calls
  holds := h.holds_set trivial
  order := by
    obtain ⟨order, hperm, hfile⟩ := h.order
    refine ⟨order ++ [a], (hperm.append_right [a]).trans (returned_set_returned hcall hp), ?_⟩
    rw [List.foldl_append, ← hfile]
    rfl

theorem Serial.settle (h : Serial apply file calls s) (hundisturbed : Undisturbed i s)
    (hstep : settle apply i s = some s') : Serial apply file calls s' := by
  unfold Rewrite.settle at hstep
  split at hstep
  · next a hcall =>
    obtain rfl := Option.some.inj hstep
    cases hwrite : apply s.file a with
    | none =>
      have hsame : update apply s.file a = s.file := by simp [update, hwrite]
      have hreturns : Serial apply file calls
          ⟨update apply s.file a, s.tmp, s.calls.set i (a, .returned)⟩ := h.returns hcall (by simp)
      rw [hsame] at hreturns
      simpa [afterRead, hwrite] using hreturns
    | some next =>
      have hwrites : Serial apply file calls
          ⟨s.file, s.tmp, s.calls.set i (a, .writing s.file next)⟩ :=
        h.goesOn hcall (by simp) (by simp) (show Point.Holds apply a (.writing s.file next) from hwrite)
      simpa [afterRead, hwrite] using hwrites
  · next a read next hcall =>
    obtain rfl := Option.some.inj hstep
    have hholds : (Point.writing read next).Holds apply a := h.holds_at hcall
    exact h.goesOn hcall (by simp) (by simp) (show Point.Holds apply a (.replacing read next) from hholds)
  · next a read next hcall =>
    obtain ⟨hread, htmp⟩ : s.file = read ∧ s.tmp = some next := hundisturbed _ hcall
    have hwrite : apply s.file a = some next := hread ▸ h.holds_at hcall
    have hupdate : update apply s.file a = next := by simp [update, hwrite]
    rw [htmp] at hstep
    obtain rfl := Option.some.inj hstep
    have hreturns : Serial apply file calls
        ⟨update apply s.file a, none, s.calls.set i (a, .returned)⟩ := h.returns hcall (by simp)
    rwa [hupdate] at hreturns
  · cases hstep

theorem serial_start (file : ρ) (calls : List α) : Serial apply file calls (start file calls) where
  calls := by simp [start, Function.comp_def]
  holds c hc := by
    obtain ⟨a, -, rfl⟩ := List.mem_map.1 hc
    trivial
  order := ⟨[], by simp [Store.returned, start, returnedCall, Function.comp_def], rfl⟩

theorem serial_of_exec {run : List ℕ}
    (hmeets : Runs.Meets (settle apply) Undisturbed run (start file calls))
    (h : Runs.exec (settle apply) run (start file calls) = some s) :
    Serial apply file calls s := by
  refine Runs.exec_invariant ?_ hmeets (serial_start file calls) h
  intro i s s' hI hundisturbed hstep
  exact hI.settle hundisturbed hstep

theorem filterMap_returnedCall {calls : List (α × Point ρ)} (h : ∀ c ∈ calls, c.2 = .returned) :
    calls.filterMap returnedCall = calls.map Prod.fst := by
  induction calls with
  | nil => rfl
  | cons c cs ih =>
    have hc : returnedCall c = some c.1 := by
      rw [returnedCall, h c List.mem_cons_self]
    rw [List.filterMap_cons_some hc, List.map_cons,
      ih fun c hc => h c (List.mem_cons_of_mem _ hc)]

/-- Once every call has settled, every call has returned. -/
theorem Serial.returned_eq (h : Serial apply file calls s) (hsettled : s.settled = true) :
    s.returned = calls := by
  rw [← h.calls]
  refine filterMap_returnedCall fun c hc => ?_
  have hdone := List.all_eq_true.1 hsettled c hc
  have hholds := h.holds c hc
  obtain ⟨a, p⟩ := c
  cases p with
  | returned => rfl
  | failed => exact hholds.elim
  | reading | writing | replacing => cases hdone

end Rewrite
