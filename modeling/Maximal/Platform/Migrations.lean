import Mathlib.Data.List.Basic
import Mathlib.Order.Lattice

/-!
# Schema migrations

Each migration runs in a transaction of its own, which also counts it in `user_version`. Any
statement may throw; a transaction that is rolled back leaves the database as it was.

## Main definitions

- `Connection` — a database and what a rollback returns to
- `runMigrations` — the missing migrations in order, up to the first that fails
- `reopen` — one open after another, each with the list and the failures of its time

## Main results

- `migrate_failure` — a migration that fails changes nothing
- `runMigrations_completes` — an open applies what is missing, up to the first step that fails
- `migrations_applied_once` — after any opens each committed migration has been applied once
-/

namespace Maximal.Platform

variable {σ : Type}

structure Database (σ : Type) where
  content : σ
  userVersion : ℕ

structure Connection (σ : Type) where
  database : Database σ
  /-- The database at the start of the open transaction. -/
  saved : Option (Database σ)

namespace Connection

def begin (c : Connection σ) : Connection σ := { c with saved := some c.database }

def commit (c : Connection σ) : Connection σ := { c with saved := none }

def rollback (c : Connection σ) : Connection σ := ⟨c.saved.getD c.database, none⟩

def alter (c : Connection σ) (change : σ → σ) : Connection σ :=
  { c with database.content := change c.database.content }

def setUserVersion (c : Connection σ) (version : ℕ) : Connection σ :=
  { c with database.userVersion := version }

end Connection

structure Migration (σ : Type) where
  name : String
  up : σ → σ

/-- The statement of a step that throws, and the message. A migration may throw half way. -/
inductive Failure (σ : Type) where
  | begin (message : String)
  | up (half : σ → σ) (message : String)
  | setUserVersion (message : String)
  | commit (message : String)

def failedStep (target : ℕ) (migration : Migration σ) (message : String) : String :=
  "SQLite migration failed at step " ++ toString target ++ " (" ++ migration.name ++ "): " ++ message

/-- One step, and the message of the error it throws. `BEGIN` stands outside the `try`. -/
def migrate (target : ℕ) (migration : Migration σ) (failure : Option (Failure σ))
    (c : Connection σ) : Connection σ × Option String :=
  let inTransaction := c.begin
  let migrated := inTransaction.alter migration.up
  let counted := migrated.setUserVersion target
  let failed := failedStep target migration
  match failure with
  | none => (counted.commit, none)
  | some (.begin message) => (c, some message)
  | some (.up half message) => ((inTransaction.alter half).rollback, some (failed message))
  | some (.setUserVersion message) => (migrated.rollback, some (failed message))
  | some (.commit message) => (counted.rollback, some (failed message))

/-- The database after an open, the migrations that were committed, and the version or the error. -/
structure Opened (σ : Type) where
  database : Database σ
  committed : List (Migration σ)
  result : Except String ℕ

/-- The steps from `current` on. -/
def runFrom (failures : ℕ → Option (Failure σ)) :
    ℕ → List (Migration σ) → Connection σ → Opened σ
  | current, [], c => ⟨c.database, [], .ok current⟩
  | current, migration :: rest, c =>
    let target := current + 1
    match migrate target migration (failures target) c with
    | (c, some message) => ⟨c.database, [], .error message⟩
    | (c, none) =>
      let opened := runFrom failures target rest c
      { opened with committed := migration :: opened.committed }

/-- `failures` tells which steps of this open fail. -/
def runMigrations (failures : ℕ → Option (Failure σ)) (migrations : List (Migration σ))
    (database : Database σ) : Opened σ :=
  let current := database.userVersion
  runFrom failures current (migrations.drop current) ⟨database, none⟩

/-- An open: the list of migrations as it is then, and the steps that fail. -/
structure Open (σ : Type) where
  migrations : List (Migration σ)
  failures : ℕ → Option (Failure σ)

/-- The database after the opens, and the migrations that were committed by all of them. -/
def reopen : List (Open σ) → Database σ → Database σ × List (Migration σ)
  | [], database => (database, [])
  | o :: opens, database =>
    let opened := runMigrations o.failures o.migrations database
    let rest := reopen opens opened.database
    (rest.1, opened.committed ++ rest.2)

/-! ## Results -/

/-- The content once these migrations have been applied to it, in order. -/
def applyAll (migrations : List (Migration σ)) (base : σ) : σ :=
  migrations.foldl (fun content migration => migration.up content) base

/-- The database holds `base` with just these migrations applied, and counts them. -/
structure Holds (base : σ) (applied : List (Migration σ)) (database : Database σ) : Prop where
  content : database.content = applyAll applied base
  version : database.userVersion = applied.length

theorem migrate_failure (target : ℕ) (migration : Migration σ) (failure : Failure σ)
    (database : Database σ) :
    (migrate target migration (some failure) ⟨database, none⟩).1 = ⟨database, none⟩ := by
  cases failure <;> rfl

theorem migrate_success {base : σ} {applied : List (Migration σ)} {database : Database σ}
    (h : Holds base applied database) (migration : Migration σ) :
    ∃ database', migrate (applied.length + 1) migration none ⟨database, none⟩ =
        (⟨database', none⟩, none) ∧ Holds base (applied ++ [migration]) database' := by
  refine ⟨⟨migration.up database.content, applied.length + 1⟩, rfl, ?_, ?_⟩
  · show migration.up database.content = _
    rw [h.content, applyAll, applyAll, List.foldl_append, List.foldl_cons, List.foldl_nil]
  · rw [List.length_append, List.length_singleton]

/-- The steps commit the migrations that are left, in order, up to the first that fails. -/
theorem runFrom_spec (failures : ℕ → Option (Failure σ)) (rest : List (Migration σ)) {base : σ}
    {applied : List (Migration σ)} {database : Database σ} (h : Holds base applied database) :
    let opened := runFrom failures applied.length rest ⟨database, none⟩
    opened.committed <+: rest ∧ Holds base (applied ++ opened.committed) opened.database ∧
      (opened.committed.length < rest.length →
        (failures (applied.length + opened.committed.length + 1)).isSome) ∧
      ∀ version, opened.result = .ok version ↔
        opened.committed = rest ∧ version = applied.length + rest.length := by
  induction rest generalizing applied database with
  | nil =>
    refine ⟨List.prefix_rfl, ?_, nofun, fun version => ?_⟩
    · rwa [runFrom, List.append_nil]
    · exact ⟨fun hversion => ⟨rfl, (Except.ok.inj hversion).symm⟩, fun h => congrArg _ h.2.symm⟩
  | cons migration rest ih =>
    intro opened
    cases hfailure : failures (applied.length + 1) with
    | some failure =>
      obtain ⟨message, hmessage⟩ : ∃ message,
          migrate (applied.length + 1) migration (some failure) ⟨database, none⟩ =
            (⟨database, none⟩, some message) := by
        cases failure <;> exact ⟨_, rfl⟩
      have hopened : opened = ⟨database, [], .error message⟩ := by
        simp only [opened, runFrom, hfailure, hmessage]
      rw [hopened]
      refine ⟨List.nil_prefix, ?_, fun _ => Option.isSome_of_eq_some hfailure, fun version => ?_⟩
      · rwa [List.append_nil]
      · exact iff_of_false nofun fun h => nomatch h.1
    | none =>
      obtain ⟨database', hstep, h'⟩ := migrate_success h migration
      have hopened : opened = { runFrom failures (applied.length + 1) rest ⟨database', none⟩ with
          committed := migration ::
            (runFrom failures (applied.length + 1) rest ⟨database', none⟩).committed } := by
        simp only [opened, runFrom, hfailure, hstep]
      have hrest := ih h'
      rw [List.length_append, List.length_singleton] at hrest
      obtain ⟨hcommitted, hholds, hstops, hresult⟩ := hrest
      rw [hopened]
      refine ⟨List.cons_prefix_cons.2 ⟨rfl, hcommitted⟩, ?_, fun hlt => ?_, fun version => ?_⟩
      · rwa [List.append_assoc, List.singleton_append] at hholds
      · have hfails := hstops (Nat.lt_of_succ_lt_succ hlt)
        rwa [Nat.add_assoc applied.length, Nat.add_comm 1] at hfails
      · rw [List.cons_inj_right, List.length_cons]
        refine (hresult version).trans (and_congr_right fun _ => ?_)
        omega

/-- The committed migrations are those of the history that follow the applied ones. -/
theorem runMigrations_spec {history applied : List (Migration σ)} {base : σ} {o : Open σ}
    {database : Database σ} (happlied : applied <+: history) (ho : o.migrations <+: history)
    (h : Holds base applied database) :
    let opened := runMigrations o.failures o.migrations database
    applied ++ opened.committed <+: history ∧
      Holds base (applied ++ opened.committed) opened.database := by
  intro opened
  have hspec := runFrom_spec o.failures (o.migrations.drop applied.length) h
  rw [← h.version] at hspec
  obtain ⟨hfirst, hholds, -, -⟩ := hspec
  refine ⟨?_, hholds⟩
  have hcommitted : opened.committed <+: o.migrations.drop applied.length := h.version ▸ hfirst
  rcases List.prefix_or_prefix_of_prefix happlied ho with hshorter | hlonger
  · obtain ⟨missing, hmissing⟩ := hshorter
    rw [← hmissing, List.drop_left] at hcommitted
    have hall : applied ++ opened.committed <+: applied ++ missing :=
      (List.prefix_append_right_inj applied).2 hcommitted
    rw [hmissing] at hall
    exact hall.trans ho
  · -- an older list than the one applied leaves nothing to do
    rw [List.drop_eq_nil_of_le hlonger.length_le, List.prefix_nil] at hcommitted
    rw [hcommitted, List.append_nil]
    exact happlied

/-- However often the store is opened, the database holds a beginning of the history. -/
theorem reopen_spec {history applied : List (Migration σ)} {base : σ} {database : Database σ}
    (happlied : applied <+: history) (h : Holds base applied database) {opens : List (Open σ)}
    (hgrow : ∀ o ∈ opens, o.migrations <+: history) :
    applied ++ (reopen opens database).2 <+: history ∧
      Holds base (applied ++ (reopen opens database).2) (reopen opens database).1 := by
  induction opens generalizing applied database with
  | nil =>
    rw [reopen, List.append_nil]
    exact ⟨happlied, h⟩
  | cons o opens ih =>
    obtain ⟨hgrown, hholds⟩ := runMigrations_spec happlied (hgrow o List.mem_cons_self) h
    have hrest := ih hgrown hholds fun o' ho' => hgrow o' (List.mem_cons_of_mem o ho')
    rwa [List.append_assoc] at hrest

/-- What an open does that finds `applied` in the database. -/
structure Completes (o : Open σ) (applied : List (Migration σ)) (opened : Opened σ) : Prop where
  version : opened.database.userVersion = applied.length + opened.committed.length
  /-- Where migrations are left, the next one has failed. -/
  stops : applied.length + opened.committed.length < o.migrations.length →
    (o.failures (applied.length + opened.committed.length + 1)).isSome
  /-- The open returns once there is none left. -/
  returns : (∃ version, opened.result = .ok version) ↔
    o.migrations.length ≤ applied.length + opened.committed.length
  result : ∀ version, opened.result = .ok version → version = opened.database.userVersion

theorem runMigrations_completes {applied : List (Migration σ)} {base : σ} (o : Open σ)
    {database : Database σ} (h : Holds base applied database) :
    Completes o applied (runMigrations o.failures o.migrations database) := by
  have hspec := runFrom_spec o.failures (o.migrations.drop applied.length) h
  have hopened : runFrom o.failures applied.length (o.migrations.drop applied.length)
      ⟨database, none⟩ = runMigrations o.failures o.migrations database := by
    rw [runMigrations, h.version]
  rw [hopened] at hspec
  generalize runMigrations o.failures o.migrations database = opened at hspec
  obtain ⟨hfirst, hholds, hstops, hresult⟩ := hspec
  have hversion := hholds.version
  rw [List.length_append] at hversion
  have hall : opened.committed = o.migrations.drop applied.length ↔
      o.migrations.length ≤ applied.length + opened.committed.length := by
    constructor
    · intro heq
      rw [heq, List.length_drop]
      omega
    · intro hlong
      refine hfirst.eq_of_length_le ?_
      rw [List.length_drop]
      exact Nat.sub_le_iff_le_add'.2 hlong
  rw [List.length_drop] at hstops hresult
  refine ⟨hversion, fun hlt => hstops (Nat.lt_sub_iff_add_lt'.2 hlt), ?_, fun version hok => ?_⟩
  · rw [← hall]
    exact ⟨fun ⟨version, hok⟩ => ((hresult version).1 hok).1,
      fun heq => ⟨_, (hresult _).2 ⟨heq, rfl⟩⟩⟩
  · obtain ⟨heq, hcount⟩ := (hresult version).1 hok
    rw [hcount, hversion, heq, List.length_drop]

/-- Every version of the list is a beginning of one history. However often the store is opened and
whatever steps fail, the committed migrations come in the order of the history, each of them is
applied once, and `user_version` is their number. Each open applies what is missing up to the first
step that fails, and a failing migration leaves everything as it was. -/
theorem migrations_applied_once {history applied : List (Migration σ)} {base : σ}
    {database : Database σ} (happlied : applied <+: history) (h : Holds base applied database)
    {opens : List (Open σ)} (hgrow : ∀ o ∈ opens, o.migrations <+: history) :
    (applied ++ (reopen opens database).2 <+: history ∧
        (reopen opens database).1.userVersion = (applied ++ (reopen opens database).2).length ∧
        (reopen opens database).1.content = applyAll (applied ++ (reopen opens database).2) base) ∧
      (∀ before o after, opens = before ++ o :: after →
        Completes o (applied ++ (reopen before database).2)
          (runMigrations o.failures o.migrations (reopen before database).1)) ∧
      ∀ target (migration : Migration σ) failure (before : Database σ),
        (migrate target migration (some failure) ⟨before, none⟩).1 = ⟨before, none⟩ := by
  obtain ⟨hfront, hholds⟩ := reopen_spec happlied h hgrow
  refine ⟨⟨hfront, hholds.version, hholds.content⟩, ?_, migrate_failure⟩
  rintro before o after rfl
  refine runMigrations_completes o (reopen_spec happlied h fun o' ho' => ?_).2
  exact hgrow o' (List.mem_append_left _ ho')

/-- A migration that leaves its name in the database. -/
def noted (name : String) : Migration (List String) := ⟨name, fun names => names ++ [name]⟩

/-- The list has one migration, then two of which the second fails half way, then three. -/
def threeOpens : List (Open (List String)) :=
  [⟨[noted "a"], fun _ => none⟩,
    ⟨[noted "a", noted "b"], fun target =>
      if target = 2 then some (.up (fun names => names ++ ["half"]) "disk full") else none⟩,
    ⟨[noted "a", noted "b", noted "c"], fun _ => none⟩]

theorem migrations_applied_once_noted :
    (([] ++ (reopen threeOpens ⟨[], 0⟩).2 <+: [noted "a", noted "b", noted "c"]) ∧
        (reopen threeOpens ⟨[], 0⟩).1.userVersion = ([] ++ (reopen threeOpens ⟨[], 0⟩).2).length ∧
        (reopen threeOpens ⟨[], 0⟩).1.content =
          applyAll ([] ++ (reopen threeOpens ⟨[], 0⟩).2) []) ∧
      (∀ before o after, threeOpens = before ++ o :: after →
        Completes o ([] ++ (reopen before ⟨[], 0⟩).2)
          (runMigrations o.failures o.migrations (reopen before ⟨[], 0⟩).1)) ∧
      ∀ target (migration : Migration (List String)) failure (before : Database (List String)),
        (migrate target migration (some failure) ⟨before, none⟩).1 = ⟨before, none⟩ := by
  refine migrations_applied_once List.nil_prefix ⟨rfl, rfl⟩ fun o ho => ?_
  simp only [threeOpens, List.mem_cons, List.not_mem_nil, or_false] at ho
  rcases ho with rfl | rfl | rfl
  · exact ⟨[noted "b", noted "c"], rfl⟩
  · exact ⟨[noted "c"], rfl⟩
  · exact List.prefix_rfl

example : (reopen threeOpens ⟨[], 0⟩).1.content = ["a", "b", "c"] := by decide

end Maximal.Platform
