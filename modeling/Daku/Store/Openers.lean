import Daku.Base.Machine
import Daku.Store.Migrations
import Mathlib.Logic.Function.Basic

/-!
# Openers of a database

Any number of openers run `apply_migrations`, `crates/daku-core/src/persistence.rs:36–85`, on the
same file, each on a connection of its own. One action is one statement of an opener; between two
statements any other opener may act. An IMMEDIATE transaction holds the write lock until it is
committed or dropped.
-/

namespace Daku.Store

open Daku.Base

/-- A database file: what the migrations build, and the `migrations` table if it exists. -/
structure Database (σ : Type) where
  schema : σ
  migrations : Option (List MigrationRow)

/-- The recorded migrations. -/
def Database.rows {σ : Type} (d : Database σ) : List MigrationRow := d.migrations.getD []

/-- An open IMMEDIATE transaction: the file as its connection sees it, and what was done in it. -/
structure Transaction (ι σ : Type) where
  opener : ι
  view : Database σ
  batches : List String
  inserted : List MigrationRow

/-- What a transaction has brought to the file. -/
structure Commit (ι : Type) where
  opener : ι
  batches : List String
  inserted : List MigrationRow

/-- The statement an opener is at, with its place in `MIGRATIONS`. -/
inductive OpenerPhase where
  | creating
  | checking (i : ℕ)
  | beginning (i : ℕ)
  | rechecking (i : ℕ)
  | executing (i : ℕ)
  | recording (i : ℕ)
  | committing (i : ℕ)
  | returned (result : Except String ℕ)
  /-- The thread or the process has ended. -/
  | stopped

/-- An opener and its count `applied`. -/
structure Opener where
  phase : OpenerPhase
  applied : ℕ

/-- The file, its write lock, the openers, and the commits so far. -/
structure Openers (ι σ : Type) where
  database : Database σ
  writer : Option (Transaction ι σ)
  openers : ι → Opener
  commits : List (Commit ι)

/-- One statement answers or fails, or an opener ends between two statements. -/
inductive OpenerAction (ι : Type) where
  | proceed (o : ι) (now : Int)
  | fail (o : ι) (error : String)
  | stop (o : ι)

namespace Openers

variable {ι σ : Type} [DecidableEq ι]

/-- Openers that are about to start. -/
def start (database : Database σ) : Openers ι σ where
  database := database
  writer := none
  openers _ := ⟨.creating, 0⟩
  commits := []

variable (migrations : List Migration) (execBatch : String → σ → Option σ) (s : Openers ι σ)

/-- Move an opener on. -/
def move (o : ι) (phase : OpenerPhase) : Openers ι σ :=
  { s with openers := Function.update s.openers o ⟨phase, (s.openers o).applied⟩ }

/-- The transaction of an opener. -/
def transactionOf (o : ι) : Option (Transaction ι σ) :=
  s.writer.filter fun tx ↦ tx.opener = o

/-- Drop what an opener has not committed. -/
def rollBack (o : ι) : Openers ι σ :=
  { s with writer := s.writer.filter fun tx ↦ tx.opener ≠ o }

/-- The statement an opener is at, answered (`persistence.rs:37–84`). -/
def proceed (o : ι) (now : Int) : Option (Openers ι σ) :=
  match (s.openers o).phase with
  | .creating =>
    match s.database.migrations, s.writer with
    | some _, _ => some (s.move o (.checking 0))
    | none, none =>
      some ({ s with database := { s.database with migrations := some [] } }.move o (.checking 0))
    | none, some _ => none
  | .checking i =>
    match migrations[i]? with
    | none => some (s.move o (.returned (.ok (s.openers o).applied)))
    | some m => do
      let rows ← s.database.migrations
      if alreadyApplied rows (migrationPrefix m.1) then some (s.move o (.checking (i + 1)))
      else some (s.move o (.beginning i))
  | .beginning i =>
    match s.writer with
    | none =>
      let tx : Transaction ι σ := { opener := o, view := s.database, batches := [], inserted := [] }
      some ({ s with writer := some tx }.move o (.rechecking i))
    | some _ => none
  | .rechecking i => do
    let m ← migrations[i]?
    let tx ← s.transactionOf o
    let rows ← tx.view.migrations
    -- The early `continue` drops the transaction.
    if alreadyApplied rows (migrationPrefix m.1) then
      some ((s.rollBack o).move o (.checking (i + 1)))
    else some (s.move o (.executing i))
  | .executing i => do
    let m ← migrations[i]?
    let tx ← s.transactionOf o
    let schema ← execBatch m.2 tx.view.schema
    let tx := { tx with view := { tx.view with schema }, batches := tx.batches ++ [m.2] }
    some ({ s with writer := some tx }.move o (.recording i))
  | .recording i => do
    let m ← migrations[i]?
    let tx ← s.transactionOf o
    let rows ← tx.view.migrations
    -- `tag` is the primary key.
    if rows.any fun row ↦ row.tag = m.1 then none
    else
      let row : MigrationRow := ⟨m.1, now⟩
      let tx := { tx with
        view := { tx.view with migrations := some (rows ++ [row]) }
        inserted := tx.inserted ++ [row] }
      some ({ s with writer := some tx }.move o (.committing i))
  | .committing i => do
    let tx ← s.transactionOf o
    some {
      database := tx.view
      writer := none
      openers := Function.update s.openers o ⟨.checking (i + 1), (s.openers o).applied + 1⟩
      commits := s.commits ++ [⟨o, tx.batches, tx.inserted⟩] }
  | .returned _ | .stopped => none

/-- The error an opener returns when the statement it is at fails (`persistence.rs:37–80`). -/
def failure (phase : OpenerPhase) (error : String) : Option String :=
  match phase with
  | .checking i => migrations[i]?.map fun _ ↦ error
  | .executing i => migrations[i]?.map fun m ↦ "migration " ++ m.1 ++ " failed: " ++ error
  | .returned _ | .stopped => none
  | _ => some error

/-- One action of an opener. -/
def step (a : OpenerAction ι) : Option (Openers ι σ) :=
  match a with
  | .proceed o now => s.proceed migrations execBatch o now
  | .fail o error => do
    let error ← failure migrations (s.openers o).phase error
    some ((s.rollBack o).move o (.returned (.error error)))
  | .stop o =>
    match (s.openers o).phase with
    | .returned _ | .stopped => none
    | _ => some ((s.rollBack o).move o .stopped)

end Openers

/-- The openers as a machine. -/
def migrating {ι σ : Type} [DecidableEq ι] (migrations : List Migration)
    (execBatch : String → σ → Option σ) : Machine (Openers ι σ) (OpenerAction ι) where
  step s a := s.step migrations execBatch a

end Daku.Store
