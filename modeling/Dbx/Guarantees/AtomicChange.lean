import Mathlib.Data.Multiset.Count
import Dbx.Source.SqliteChange

/-!
# Structure changes of SQLite tables are atomic

Whatever fails in `execute_change_transaction`
(`crates/dbx-core/src/table_structure_sql/sqlite_rebuild.rs:608-694`), the change is either
committed after all its checks or leaves no trace, and the connection ends in autocommit
mode with both pragmas as they were. That is so if no statement of the plan controls the
transaction itself: default values of new columns and the filters of indexes are put into
the statements as they are, and `execute_batch` runs every command that SQLite reads there.
-/
namespace Dbx.Guarantees.AtomicChange

open Dbx.Lib.Text Dbx.Lib.Program Dbx.Source.SqliteChange List
open Function (update update_self update_of_ne)

/-! ## The comparison of violations -/

theorem countViolations_eq (baseline : List SqliteForeignKeyViolation)
    (violation : SqliteForeignKeyViolation) :
    countViolations baseline violation = baseline.count violation := by
  have general : ∀ (rows : List SqliteForeignKeyViolation)
      (counts : SqliteForeignKeyViolation → Nat),
      rows.foldl (fun counts row => update counts row (counts row + 1)) counts violation =
        counts violation + rows.count violation := by
    intro rows
    induction rows with
    | nil => intro counts; rfl
    | cons row rows ih =>
      intro counts
      rw [foldl_cons, ih]
      by_cases same : violation = row
      · subst same
        rw [update_self, count_cons_self]
        omega
      · rw [update_of_ne same, count_cons_of_ne (Ne.symm same)]
  rw [countViolations, general, Nat.zero_add]

theorem firstBeyond_eq_none (after : List SqliteForeignKeyViolation)
    (remaining : SqliteForeignKeyViolation → Nat) :
    firstBeyond remaining after = none ↔ ∀ violation, after.count violation ≤ remaining violation := by
  induction after generalizing remaining with
  | nil => simp [firstBeyond]
  | cons row after ih =>
    unfold firstBeyond
    split
    · rename_i positive
      rw [ih]
      constructor
      · intro within violation
        have step := within violation
        by_cases same : violation = row
        · subst same
          rw [update_self] at step
          rw [count_cons_self]
          omega
        · rw [update_of_ne same] at step
          rw [count_cons_of_ne (Ne.symm same)]
          exact step
      · intro within violation
        have step := within violation
        by_cases same : violation = row
        · subst same
          rw [count_cons_self] at step
          rw [update_self]
          omega
        · rw [count_cons_of_ne (Ne.symm same)] at step
          rw [update_of_ne same]
          exact step
    · rename_i used
      constructor
      · intro found
        cases found
      · intro within
        have step := within row
        rw [count_cons_self] at step
        omega

/-- No violation is added exactly if those after are among those before, with repetitions. -/
theorem firstAdded_eq_none {baseline after : List SqliteForeignKeyViolation} :
    firstAddedForeignKeyViolation baseline after = none ↔
      (after : Multiset SqliteForeignKeyViolation) ≤ baseline := by
  rw [firstAddedForeignKeyViolation, firstBeyond_eq_none, Multiset.le_iff_count]
  simp [countViolations_eq]

/-! ## What a change comes to -/

section Outcome

variable {C : Type} (db : Database C) (expectedRevision : Str)

/-- The plan was made of the content before, and everything that was to be checked holds. -/
structure Checked (before after : World C) : Prop where
  plan : ∃ plan, db.buildChangePlan before.content = .ok plan ∧
    plan.schemaRevision = expectedRevision ∧ plan.warnings = [] ∧
    after.executed = plan.executableStatements ∧
    (db.foreignKeyViolations plan.schema after.content : Multiset SqliteForeignKeyViolation) ≤
      db.foreignKeyViolations plan.schema before.content

/-- Either the change is committed and checked, or it failed and left no trace; the
connection is as it was in both cases. -/
structure Atomic (before : World C) (result : Except Str Unit) (after : World C) : Prop where
  autocommit : after.saved = none
  foreignKeys : after.foreignKeys = before.foreignKeys
  legacyAlterTable : after.legacyAlterTable = before.legacyAlterTable
  committed : after.committed = true → result = .ok () ∧ Checked db expectedRevision before after
  undone : after.committed = false → (∃ e, result = .error e) ∧ after.content = before.content

/-- SQLite reads no transaction control in the statements of the plan. -/
def KeepsTransaction (content : C) : Prop :=
  ∀ plan, db.buildChangePlan content = .ok plan → ∀ statement ∈ plan.executableStatements,
    ∀ command ∈ db.commands statement, command = .other

end Outcome

/-! ## Commands inside the transaction -/

section Commands

variable {C : Type} {w w' : World C} {content : C}

/-- The transaction that started from `content` is open. -/
structure Open (content : C) (w w' : World C) : Prop where
  saved : w'.saved = some content
  foreignKeys : w'.foreignKeys = w.foreignKeys
  legacyAlterTable : w'.legacyAlterTable = w.legacyAlterTable
  committed : w'.committed = w.committed

/-- It is open, or SQLite has rolled it back. -/
structure OpenOrUndone (content : C) (w w' : World C) : Prop where
  state : w'.saved = some content ∨ w'.saved = none ∧ w'.content = content
  foreignKeys : w'.foreignKeys = w.foreignKeys
  legacyAlterTable : w'.legacyAlterTable = w.legacyAlterTable
  committed : w'.committed = w.committed

theorem Open.orUndone (h : Open content w w') : OpenOrUndone content w w' :=
  ⟨Or.inl h.saved, h.foreignKeys, h.legacyAlterTable, h.committed⟩

theorem Open.fail (h : Open content w w') (rolledBack : Bool) :
    OpenOrUndone content w (w'.fail rolledBack) := by
  unfold World.fail
  cases rolledBack with
  | false => exact h.orUndone
  | true =>
    rw [h.saved]
    exact ⟨Or.inr ⟨rfl, rfl⟩, h.foreignKeys, h.legacyAlterTable, h.committed⟩

/-- A batch without transaction control leaves the transaction open, or fails. -/
theorem runCommands_other (effects : Nat → Effect C) (n : Nat) {commands : List Command}
    (others : ∀ command ∈ commands, command = .other) (h : Open content w w') :
    match runCommands w' effects n commands with
    | (.ok _, after) => Open content w after ∧ after.executed = w'.executed
    | (.error _, after) => OpenOrUndone content w after := by
  induction commands generalizing n w' with
  | nil => exact ⟨h, rfl⟩
  | cons command commands ih =>
    obtain rfl := others command mem_cons_self
    unfold runCommands
    cases effects n with
    | fails e rolledBack => exact h.fail rolledBack
    | succeeds next =>
      have stays : Open content w { w' with content := next } :=
        ⟨h.saved, h.foreignKeys, h.legacyAlterTable, h.committed⟩
      exact ih (n + 1) (forall_mem_cons.mp others).2 stays

end Commands

/-! ## The program -/

variable {expectedRevision : Str}

section Program

variable {C : Type} (db : Database C)

/-- Where a program returns, its result and the world satisfy `Q`. -/
abbrev Ensures {α : Type} (Q : α → World C → Prop) (p : Prog Op Op.Ans α) (w : World C) : Prop :=
  Always (handle db) (fun _ => True) Q p w

variable {db} {w w' : World C} {content : C} {α : Type}

theorem ensures_orFail {message : String} {p : Action α} {Q : Except Str α → World C → Prop}
    (h : Ensures db Q p w) (error : ∀ e e' w, Q (.error e) w → Q (.error e') w) :
    Ensures db Q (orFail message p) w := by
  apply h.bind
  intro result w' _ hQ
  cases result with
  | ok a => exact .ret trivial hQ
  | error e => exact .ret trivial (error e _ w' hQ)

/-- The transaction is still open with this content, after these statements; or an error has
been returned. -/
def Stays (content : C) (w : World C) (current : C → Prop) (executed : List Str)
    (result : Except Str α) (after : World C) : Prop :=
  match result with
  | .ok _ => Open content w after ∧ current after.content ∧ after.executed = executed
  | .error _ => OpenOrUndone content w after

theorem ensures_begin (autocommit : w.saved = none) :
    Ensures db (Stays w.content w (· = w.content) w.executed)
      (Prog.await Op.beginImmediate) w := by
  apply Always.call trivial
  intro effects
  simp only [handle]
  cases effects 0 with
  | fails e rolledBack =>
    have same : w.fail rolledBack = w := by
      cases rolledBack <;> simp [World.fail, autocommit]
    simp only [runCommand, same]
    exact .ret trivial ⟨Or.inr ⟨autocommit, rfl⟩, rfl, rfl, rfl⟩
  | succeeds next =>
    simp only [runCommand, autocommit]
    exact .ret trivial ⟨⟨rfl, rfl, rfl, rfl⟩, rfl, rfl⟩

/-- A query of the open transaction answers and changes nothing, or it fails. -/
def Answers (content : C) (w w' : World C) (value : Except Str α) (result : Except Str α)
    (after : World C) : Prop :=
  match result with
  | .ok a => value = .ok a ∧ after = w'
  | .error _ => OpenOrUndone content w after

theorem answers_runQuery (h : Open content w w') {value : Except Str α} {effect : Effect C} :
    Answers content w w' value (runQuery w' value effect).1 (runQuery w' value effect).2 := by
  cases effect with
  | fails e rolledBack => exact h.fail rolledBack
  | succeeds next =>
    cases value with
    | ok a => exact ⟨rfl, rfl⟩
    | error e => exact h.orUndone

theorem ensures_buildChangePlan (h : Open content w w') :
    Ensures db (Answers content w w' (db.buildChangePlan w'.content))
      (Prog.await Op.buildChangePlan) w' := by
  apply Always.call trivial
  intro effects
  exact .ret trivial (answers_runQuery h)

theorem ensures_foreignKeyViolations (h : Open content w w') {schema : Str} :
    Ensures db (Answers content w w' (.ok (db.foreignKeyViolations schema w'.content)))
      (Prog.await (Op.foreignKeyViolations schema)) w' := by
  apply Always.call trivial
  intro effects
  exact .ret trivial (answers_runQuery h)

theorem ensures_executeStatements {statements : List Str} (index : Nat)
    (others : ∀ statement ∈ statements, ∀ command ∈ db.commands statement, command = .other)
    (h : Open content w w') :
    Ensures db (Stays content w (fun _ => True) (w'.executed ++ statements))
      (executeStatements index statements) w' := by
  induction statements generalizing index w' with
  | nil => exact .ret trivial ⟨h, trivial, by simp⟩
  | cons statement statements ih =>
    have first : Ensures db (Stays content w (fun _ => True) (w'.executed ++ [statement]))
        (Prog.await (Op.executeBatch statement)) w' := by
      apply Always.call trivial
      intro effects
      have batch := runCommands_other effects 0 (others statement mem_cons_self) h
      simp only [handle]
      cases ran : runCommands w' effects 0 (db.commands statement) with
      | mk result after =>
        rw [ran] at batch
        cases result with
        | error e => exact .ret trivial batch
        | ok _ =>
          obtain ⟨still, same⟩ := batch
          exact .ret trivial ⟨⟨still.saved, still.foreignKeys, still.legacyAlterTable,
            still.committed⟩, trivial, by rw [← same]⟩
    refine (ensures_orFail first fun _ _ _ undone => undone).andOk ?_ fun _ _ _ undone => undone
    intro _ after _ done
    have rest := ih (index + 1) (forall_mem_cons.mp others).2 done.1
    rw [done.2.2, append_assoc] at rest
    exact rest

/-- What the closure leaves behind. -/
def Operated (db : Database C) (expectedRevision : Str) (w : World C) (result : Except Str Unit)
    (after : World C) : Prop :=
  match result with
  | .ok _ => after.saved = none ∧ after.committed = true ∧ after.foreignKeys = w.foreignKeys ∧
      after.legacyAlterTable = w.legacyAlterTable ∧ Checked db expectedRevision w after
  | .error _ => OpenOrUndone w.content w after

/-- The commit of a change that has passed its checks. -/
theorem ensures_commit (h : Open w.content w w') (checked : Checked db expectedRevision w w') :
    Ensures db (Operated db expectedRevision w) (Prog.await Op.commit) w' := by
  apply Always.call trivial
  intro effects
  simp only [handle]
  cases effects 0 with
  | fails e rolledBack => exact .ret trivial (h.fail rolledBack)
  | succeeds next =>
    simp only [runCommand, h.saved]
    exact .ret trivial ⟨rfl, rfl, h.foreignKeys, h.legacyAlterTable, ⟨checked.plan⟩⟩

theorem ensures_operation (expectedRevision : Str) (autocommit : w.saved = none)
    (unexecuted : w.executed = []) (keeps : KeepsTransaction db w.content) :
    Ensures db (Operated db expectedRevision w) (operation expectedRevision) w := by
  refine (ensures_orFail (ensures_begin autocommit) fun _ _ _ undone => undone).andOk ?_
    fun _ _ _ undone => undone
  intro _ w₁ _ begun
  obtain ⟨open₁, content₁, executed₁⟩ := begun
  refine (ensures_buildChangePlan open₁).andOk ?_ fun _ _ _ undone => undone
  intro plan w₂ _ planned
  obtain ⟨planEq, rfl⟩ := planned
  split
  · exact .ret trivial open₁.orUndone
  split
  · exact .ret trivial open₁.orUndone
  rename_i revision warnings
  refine (ensures_foreignKeyViolations open₁).andOk ?_ fun _ _ _ undone => undone
  intro baseline w₃ _ baselineEq
  obtain ⟨baselineEq, rfl⟩ := baselineEq
  have others := keeps plan (content₁ ▸ planEq)
  refine (ensures_executeStatements 0 others open₁).andOk ?_ fun _ _ _ undone => undone
  intro _ w₄ _ ran
  obtain ⟨open₄, _, executed₄⟩ := ran
  refine (ensures_foreignKeyViolations open₄).andOk ?_ fun _ _ _ undone => undone
  intro after w₅ _ afterEq
  obtain ⟨afterEq, rfl⟩ := afterEq
  split
  · exact .ret trivial open₄.orUndone
  rename_i none
  refine ensures_orFail (ensures_commit open₄ ⟨plan, ?_⟩) fun _ _ _ undone => undone
  rw [executed₁, unexecuted, nil_append] at executed₄
  have included := firstAdded_eq_none.mp none
  rw [← Except.ok.inj baselineEq, ← Except.ok.inj afterEq, content₁] at included
  exact ⟨content₁ ▸ planEq, not_not.mp revision, not_not.mp warnings, executed₄, included⟩

/-- What is left when an open transaction has been rolled back. -/
structure Settled (db : Database C) (expectedRevision : Str) (w : World C)
    (result : Except Str Unit) (after : World C) : Prop where
  autocommit : after.saved = none
  outcome : match result with
    | .ok _ => after.committed = true ∧ Checked db expectedRevision w after
    | .error _ => after.content = w.content ∧ after.committed = w.committed

theorem ensures_rollbackIfOpen {result : Except Str Unit}
    (h : Operated db expectedRevision w result w') :
    Ensures db (fun _ after => Settled db expectedRevision w result after)
      (rollbackIfOpen result) w' := by
  cases result with
  | ok _ =>
    obtain ⟨saved, committed, _, _, checked⟩ := h
    exact .ret trivial ⟨saved, committed, checked⟩
  | error e =>
    apply Always.call trivial
    intro effects
    obtain saved | undone := h.state
    · simp only [handle, saved, Prog.bind]
      apply Always.call trivial
      intro effects
      simp only [handle, runCommand, saved]
      exact .ret trivial ⟨rfl, rfl, h.committed⟩
    · simp only [handle, undone.1, Prog.bind]
      exact .ret trivial ⟨undone.1, undone.2, h.committed⟩

theorem pragmaValue_ne_zero (on : Bool) : (pragmaValue on != 0) = on := by
  cases on <;> rfl

/-- The two pragmas are written back, and the result is that of the closure. -/
theorem ensures_cleanup {before : World C} {result : Except Str Unit}
    (same : w.content = before.content) (uncommitted : w.committed = false)
    (h : Settled db expectedRevision w result w') :
    Ensures db (Atomic db expectedRevision before)
      (cleanup (pragmaValue before.foreignKeys) (pragmaValue before.legacyAlterTable) result)
      w' := by
  apply Always.call trivial
  intro _
  apply Always.call trivial
  intro _
  simp only [handle, h.autocommit, Option.isSome_none, Bool.false_eq_true, if_false,
    pragmaValue_ne_zero, Prog.bind]
  have outcome := h.outcome
  apply Always.ret trivial
  cases result with
  | ok _ =>
    constructor
    · rfl
    · rfl
    · rfl
    · intro _
      constructor
      · rfl
      · obtain ⟨plan, planned, revision, warnings, executed, included⟩ := outcome.2.plan
        rw [same] at planned included
        exact ⟨⟨plan, planned, revision, warnings, executed, included⟩⟩
    · intro undone
      have committed : w'.committed = true := outcome.1
      exact absurd (committed.symm.trans undone) (by decide)
  | error e =>
    constructor
    · rfl
    · rfl
    · rfl
    · intro committed
      have unchanged : w'.committed = false := outcome.2.trans uncommitted
      exact absurd (unchanged.symm.trans committed) (by decide)
    · intro _
      exact ⟨⟨e, rfl⟩, outcome.1.trans same⟩

theorem ensures_executeChangeTransaction (expectedRevision : Str) (autocommit : w.saved = none)
    (uncommitted : w.committed = false) (unexecuted : w.executed = [])
    (keeps : KeepsTransaction db w.content) :
    Ensures db (Atomic db expectedRevision w) (executeChangeTransaction expectedRevision) w := by
  have fail_same : ∀ rolledBack, w.fail rolledBack = w := by
    intro rolledBack
    cases rolledBack <;> simp [World.fail, autocommit]
  have failed : ∀ e, Atomic db expectedRevision w (.error e) w := fun e =>
    ⟨autocommit, rfl, rfl, fun committed => absurd (committed.symm.trans uncommitted) (by decide),
      fun _ => ⟨⟨e, rfl⟩, rfl⟩⟩
  apply Always.call trivial
  intro effects
  simp only [handle]
  cases effects 0 with
  | fails e rolledBack =>
    simp only [runQuery, fail_same]
    exact .ret trivial (failed _)
  | succeeds _ =>
  apply Always.call trivial
  intro effects
  simp only [handle]
  cases effects 0 with
  | fails e rolledBack =>
    simp only [runQuery, fail_same]
    exact .ret trivial (failed _)
  | succeeds _ =>
  apply Always.call trivial
  intro _
  simp only [handle, runQuery, autocommit, Option.isSome_none, Bool.false_eq_true, if_false]
  apply Always.call trivial
  intro _
  let started : World C := { w with foreignKeys := false, legacyAlterTable := true, saved := none }
  apply Always.bind (ensures_operation (w := started) expectedRevision rfl unexecuted keeps)
  intro result w₁ _ operated
  apply Always.bind (ensures_rollbackIfOpen operated)
  intro _ w₂ _ settled
  exact ensures_cleanup (w := started) rfl uncommitted settled

end Program

/-- Under these choices of the connection, the change returns and is atomic. -/
def ReturnsAtomic {C : Type} (db : Database C) (expectedRevision : Str) (before : World C)
    (choices : Nat → Nat → Effect C) : Prop :=
  ∃ n result after,
    exec (handle db) (executeChangeTransaction expectedRevision) before
      ((List.range n).map choices) = (.ret result, after) ∧
    Atomic db expectedRevision before result after

/-- A new column whose default value goes on with a `COMMIT`, and an index. -/
def addColumnStatement : Str := "ALTER TABLE \"t\" ADD COLUMN \"c\" INTEGER DEFAULT 0; COMMIT;".toList

def createIndexStatement : Str := "CREATE INDEX \"i\" ON \"t\" (\"x\");".toList

/-- The content is the number of commands that have changed it. -/
def sampleDatabase (statements : List Str) : Database Nat where
  commands statement := if statement = addColumnStatement then [.other, .commit] else [.other]
  buildChangePlan _ := .ok ⟨"r".toList, [], statements, "main".toList⟩
  foreignKeyViolations _ _ := []

/-- The second statement fails. -/
def secondFails (operation : Nat) (_ : Nat) : Effect Nat :=
  if operation = 8 then .fails "no such column: x".toList false else .succeeds 1

end Dbx.Guarantees.AtomicChange
