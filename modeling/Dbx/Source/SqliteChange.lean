import Mathlib.Logic.Function.Basic
import Dbx.Lib.Program
import Dbx.Lib.Text

/-!
# Structure changes of SQLite tables

Model of `execute_change_transaction` and `first_added_foreign_key_violation`
(`crates/dbx-core/src/table_structure_sql/sqlite_rebuild.rs:608-738`) on one connection.

What SQLite does is a choice of the environment: each command of a batch may change the
content or fail, and a failing command may have rolled the transaction back. The text of a
statement is read by SQLite as a list of commands. The plan that `build_change_plan` makes
of the content and the rows of `foreign_key_check` are functions of the content; their
queries may fail. `ROLLBACK` and the writes of the two pragmas succeed, and `foreign_keys`
cannot be written inside a transaction. The result rows, which are empty, and the elapsed
time are left out.
-/
namespace Dbx.Source.SqliteChange

open Dbx.Lib.Text Dbx.Lib.Program

/-! ## Foreign key violations -/

structure SqliteForeignKeyViolation where
  table : Str
  rowid : Option Int
  parent : Str
  foreignKeyId : Int
  deriving DecidableEq

def formatForeignKeyViolation (violation : SqliteForeignKeyViolation) : Str :=
  "table=".toList ++ violation.table ++ ", rowid=".toList
    ++ (match violation.rowid with
      | some rowid => (toString rowid).toList
      | none => "null".toList)
    ++ ", parent=".toList ++ violation.parent ++ ", foreignKeyId=".toList
    ++ (toString violation.foreignKeyId).toList

/-- The `BTreeMap` with the number of times each violation occurs. -/
def countViolations (baseline : List SqliteForeignKeyViolation) : SqliteForeignKeyViolation → Nat :=
  baseline.foldl (fun counts violation =>
    Function.update counts violation (counts violation + 1)) fun _ => 0

/-- The walk over the rows after the change; `remaining` is what is left of the baseline. -/
def firstBeyond (remaining : SqliteForeignKeyViolation → Nat) :
    List SqliteForeignKeyViolation → Option SqliteForeignKeyViolation
  | [] => none
  | violation :: after =>
    if 0 < remaining violation then
      firstBeyond (Function.update remaining violation (remaining violation - 1)) after
    else some violation

def firstAddedForeignKeyViolation (baseline after : List SqliteForeignKeyViolation) :
    Option SqliteForeignKeyViolation :=
  firstBeyond (countViolations baseline) after

/-! ## The transaction -/

structure SqliteChangePlan where
  schemaRevision : Str
  warnings : List Str
  executableStatements : List Str
  schema : Str
  deriving DecidableEq

/-- What is asked of the connection. -/
inductive Op where
  | readForeignKeys
  | readLegacyAlterTable
  | writeForeignKeys (on : Bool)
  | writeLegacyAlterTable (on : Bool)
  | beginImmediate
  | buildChangePlan
  | foreignKeyViolations (schema : Str)
  | executeBatch (statement : Str)
  | commit
  | isAutocommit
  | rollback

abbrev Op.Ans : Op → Type
  | .readForeignKeys | .readLegacyAlterTable => Except Str Int
  | .writeForeignKeys _ | .writeLegacyAlterTable _ => Except Str Unit
  | .beginImmediate | .executeBatch _ | .commit | .rollback => Except Str Unit
  | .buildChangePlan => Except Str SqliteChangePlan
  | .foreignKeyViolations _ => Except Str (List SqliteForeignKeyViolation)
  | .isAutocommit => Bool

abbrev Action (α : Type) := Prog Op Op.Ans (Except Str α)

/-- `map_err` with a text before the error. -/
def orFail {α : Type} (message : String) (p : Action α) : Action α :=
  p.bind fun
    | .ok a => .ret (.ok a)
    | .error e => .ret (.error (message.toList ++ e))

/-- The loop over the statements; `index` have been executed. -/
def executeStatements (index : Nat) : List Str → Action Unit
  | [] => .ret (.ok ())
  | statement :: statements =>
    (orFail ("SQLite structure statement " ++ toString (index + 1) ++ " failed: ")
      (.await (Op.executeBatch statement))).andOk fun _ =>
    executeStatements (index + 1) statements

def schemaChangedMessage : Str :=
  ("SQLite schema changed or the structure draft differs from the preview. Refresh the table "
    ++ "structure and preview the change again.").toList

/-- The closure that runs between `BEGIN` and `COMMIT`. -/
def operation (expectedRevision : Str) : Action Unit :=
  (orFail "Failed to begin SQLite table rebuild transaction: "
    (.await Op.beginImmediate)).andOk fun _ =>
  (Prog.await Op.buildChangePlan).andOk fun (plan : SqliteChangePlan) =>
  if plan.schemaRevision ≠ expectedRevision then .ret (.error schemaChangedMessage)
  else if plan.warnings ≠ [] then
    .ret (.error ("SQLite structure change cannot be applied: ".toList
      ++ joinWith [' '] plan.warnings))
  else
    (Prog.await (Op.foreignKeyViolations plan.schema)).andOk
      fun (foreignKeyBaseline : List SqliteForeignKeyViolation) =>
    (executeStatements 0 plan.executableStatements).andOk fun _ =>
    (Prog.await (Op.foreignKeyViolations plan.schema)).andOk
      fun (foreignKeyAfter : List SqliteForeignKeyViolation) =>
    match firstAddedForeignKeyViolation foreignKeyBaseline foreignKeyAfter with
    | some violation =>
      .ret (.error (("SQLite foreign key check found a new violation after rebuilding the "
        ++ "table: ").toList ++ formatForeignKeyViolation violation))
    | none => orFail "SQLite table rebuild COMMIT failed: " (.await Op.commit)

/-- The result, with the errors of the two pragma writes behind it. -/
def withCleanupErrors (operationResult : Except Str Unit) (cleanupErrors : List Str) :
    Except Str Unit :=
  match operationResult with
  | .error e =>
    if cleanupErrors = [] then .error e
    else .error (e ++ "; ".toList ++ joinWith "; ".toList cleanupErrors)
  | .ok () =>
    if cleanupErrors = [] then .ok () else .error (joinWith "; ".toList cleanupErrors)

def cleanupError (message : String) : Except Str Unit → List Str
  | .ok _ => []
  | .error e => [message.toList ++ e]

/-- Ends a transaction that is still open after an error. -/
def rollbackIfOpen (operationResult : Except Str Unit) : Prog Op Op.Ans Unit :=
  match operationResult with
  | .ok _ => .ret ()
  | .error _ =>
    (Prog.await Op.isAutocommit).bind fun (autocommit : Bool) =>
    if autocommit then .ret () else (Prog.await Op.rollback).bind fun _ => .ret ()

def cleanup (foreignKeysEnabled legacyAlterTableEnabled : Int)
    (operationResult : Except Str Unit) : Action Unit :=
  (Prog.await (Op.writeLegacyAlterTable (legacyAlterTableEnabled != 0))).bind fun legacy =>
  (Prog.await (Op.writeForeignKeys (foreignKeysEnabled != 0))).bind fun foreignKeys =>
  .ret (withCleanupErrors operationResult
    (cleanupError "Failed to restore SQLite legacy_alter_table state: " legacy
      ++ cleanupError "Failed to restore SQLite foreign_keys state: " foreignKeys))

def legacyMessage : String :=
  "Failed to enable SQLite legacy_alter_table for the backup rename: "

def executeChangeTransaction (expectedRevision : Str) : Action Unit :=
  (orFail "Failed to read SQLite foreign_keys state: "
    (.await Op.readForeignKeys)).andOk fun (foreignKeysEnabled : Int) =>
  (orFail "Failed to read SQLite legacy_alter_table state: "
    (.await Op.readLegacyAlterTable)).andOk fun (legacyAlterTableEnabled : Int) =>
  (orFail "Failed to disable SQLite foreign key enforcement: "
    (.await (Op.writeForeignKeys false))).andOk fun _ =>
  (Prog.await (Op.writeLegacyAlterTable true)).bind fun
    | .error error =>
      (Prog.await (Op.writeForeignKeys (foreignKeysEnabled != 0))).bind fun
        | .error restoreError =>
          .ret (.error (legacyMessage.toList ++ error
            ++ "; failed to restore foreign_keys state: ".toList ++ restoreError))
        | .ok _ => .ret (.error (legacyMessage.toList ++ error))
    | .ok _ =>
      (operation expectedRevision).bind fun operationResult =>
      (rollbackIfOpen operationResult).bind fun _ =>
      cleanup foreignKeysEnabled legacyAlterTableEnabled operationResult

/-! ## The connection -/

inductive Command where
  | begin
  | commit
  | rollback
  /-- Any command that does not control the transaction. -/
  | other
  deriving DecidableEq, Repr

/-- What becomes of a command, or of a query: `content` is the content after it. -/
inductive Effect (C : Type) where
  | succeeds (content : C)
  | fails (message : Str) (rolledBack : Bool)

/-- `C` is the content of the database. -/
structure Database (C : Type) where
  commands : Str → List Command
  buildChangePlan : C → Except Str SqliteChangePlan
  foreignKeyViolations : Str → C → List SqliteForeignKeyViolation

structure World (C : Type) where
  content : C
  /-- The content at the start of the open transaction; none in autocommit mode. -/
  saved : Option C := none
  foreignKeys : Bool
  legacyAlterTable : Bool
  /-- The program's `COMMIT` has succeeded. -/
  committed : Bool := false
  /-- The statements that the program has executed without an error. -/
  executed : List Str := []

section Connection

variable {C : Type}

def World.fail (w : World C) (rolledBack : Bool) : World C :=
  match rolledBack, w.saved with
  | true, some content => { w with content, saved := none }
  | _, _ => w

def runCommand (w : World C) : Command → Effect C → Except Str Unit × World C
  | _, .fails e rolledBack => (.error e, w.fail rolledBack)
  | .other, .succeeds content => (.ok (), { w with content })
  | .begin, .succeeds _ =>
    match w.saved with
    | none => (.ok (), { w with saved := some w.content })
    | some _ => (.error "cannot start a transaction within a transaction".toList, w)
  | .commit, .succeeds _ =>
    match w.saved with
    | some _ => (.ok (), { w with saved := none })
    | none => (.error "cannot commit - no transaction is active".toList, w)
  | .rollback, .succeeds _ =>
    match w.saved with
    | some content => (.ok (), { w with content, saved := none })
    | none => (.error "cannot rollback - no transaction is active".toList, w)

/-- A batch stops at the first command that fails. -/
def runCommands (w : World C) (effects : Nat → Effect C) : Nat → List Command →
    Except Str Unit × World C
  | _, [] => (.ok (), w)
  | n, command :: commands =>
    match runCommand w command (effects n) with
    | (.ok _, w') => runCommands w' effects (n + 1) commands
    | (.error e, w') => (.error e, w')

/-- A query that answers `value`, unless it fails. -/
def runQuery {α : Type} (w : World C) (value : Except Str α) : Effect C → Except Str α × World C
  | .succeeds _ => (value, w)
  | .fails e rolledBack => (.error e, w.fail rolledBack)

def pragmaValue (on : Bool) : Int := if on then 1 else 0

/-- The environment chooses the effects of the commands of each operation. -/
def handle (db : Database C) : Handler Op Op.Ans (World C) (Nat → Effect C) :=
  fun w op effects =>
  match op with
  | .readForeignKeys => runQuery w (.ok (pragmaValue w.foreignKeys)) (effects 0)
  | .readLegacyAlterTable => runQuery w (.ok (pragmaValue w.legacyAlterTable)) (effects 0)
  | .writeForeignKeys on =>
    (.ok (), if w.saved.isSome then w else { w with foreignKeys := on })
  | .writeLegacyAlterTable on => (.ok (), { w with legacyAlterTable := on })
  | .beginImmediate => runCommand w .begin (effects 0)
  | .buildChangePlan => runQuery w (db.buildChangePlan w.content) (effects 0)
  | .foreignKeyViolations schema =>
    runQuery w (.ok (db.foreignKeyViolations schema w.content)) (effects 0)
  | .executeBatch statement =>
    match runCommands w effects 0 (db.commands statement) with
    | (.ok _, w') => (.ok (), { w' with executed := w'.executed ++ [statement] })
    | (.error e, w') => (.error e, w')
  | .commit =>
    match runCommand w .commit (effects 0) with
    | (.ok _, w') => (.ok (), { w' with committed := true })
    | (.error e, w') => (.error e, w')
  | .isAutocommit => (w.saved.isNone, w)
  | .rollback => runCommand w .rollback (.succeeds w.content)

end Connection

end Dbx.Source.SqliteChange
