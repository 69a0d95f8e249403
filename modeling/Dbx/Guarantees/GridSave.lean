import Dbx.Lib.Table
import Dbx.Source.DataGridSave

/-!
# What saving a grid does to the table

The statements of `buildDataGridSaveStatements` are run on a keyed table
(`Dbx.Lib.Table`) by a database that reads a literal as a value of its column
(`Reading`). The grid shows rows of the table, found by their primary key
(`KeyedGrid`). If every statement is accepted, the table afterwards is the table
before with the written cells of the dirty rows replaced, the deleted rows gone and
the new rows appended (`savedTable`), and the joined statements of MySQL do what one
statement per row does (`grid_save_exact`).

Some cells and rows are left out by the builder, and so by `savedTable`: key and
partition columns of a ClickHouse update, the row identifier of Oracle, generated
columns, text search columns of PostgreSQL in a new row, and a new row without
anything to insert, which only MySQL adds.
-/
namespace Dbx.Guarantees.GridSave

set_option linter.unusedSectionVars false

open Dbx.Lib.Text Dbx.Lib.Table Dbx.Source Dbx.Source.DataGrid DataGridSaveStatementOptions Schema
open Function
open Bool (false_eq_true)
open List Option

/-- The name of a column in the database. -/
def resolve (databaseType : Option DatabaseType) (name : Str) : Str :=
  if driftsInCase databaseType then normalizeColumnName name else name

/-- How the database reads the literals of the grid as values of their column. -/
structure Reading (V : Type) (texts : GridText) (databaseType : Option DatabaseType) where
  valueOf : Str → Str → Option V
  null : ∀ column, valueOf column "NULL".toList = none

namespace Reading

variable {V : Type} [DecidableEq V] {texts : GridText} {databaseType : Option DatabaseType}
  (reading : Reading V texts databaseType)

/-- A comparison with a literal holds for no NULL. -/
def holds (row : Row Str V) (c : Comparison) : Bool :=
  let cell := row (resolve databaseType c.column)
  match c.literal with
  | none => cell.isNone
  | some literal => cell.isSome && cell == reading.valueOf (resolve databaseType c.column) literal

theorem holds_some {row : Row Str V} {column literal : Str} {form : ComparisonForm} :
    reading.holds row ⟨column, some literal, form⟩ = true ↔
      row (resolve databaseType column) = reading.valueOf (resolve databaseType column) literal ∧
        reading.valueOf (resolve databaseType column) literal ≠ none := by
  simp only [holds, Bool.and_eq_true, beq_iff_eq, isSome_iff_ne_none]
  grind

def selects (conditions : List Conjunction) (row : Row Str V) : Bool :=
  conditions.any fun conjunction => conjunction.all (reading.holds row)

def cell (column literal : Str) : Str × Option V :=
  (resolve databaseType column, reading.valueOf (resolve databaseType column) literal)

def assignments (sets : List Assignment) : List (Str × Option V) :=
  sets.map fun a => reading.cell a.column a.literal

def translate : GridStatement → Statement Str V
  | .update sets conditions => .update (reading.assignments sets) (reading.selects conditions)
  | .delete conditions => .delete (reading.selects conditions)
  | .insert columns tuples =>
    .insert (tuples.map fun literals => List.zipWith reading.cell columns literals)
  | .insertAll columns literals => .insert [List.zipWith reading.cell columns literals]

end Reading

variable {α : Type} {rowIndex : Nat} {row : List Value} {dirtyRows : List (Nat × Changes)}

section

variable {V : Type} [DecidableEq V] (options : DataGridSaveStatementOptions) (texts : GridText)
  (reading : Reading V texts options.databaseType)

/-- The literal with which a key column is compared. -/
def keyLiteral (row : List Value) (primaryKey : Str) : Str :=
  mysqlJsonPredicateLiteral
    (texts.literal (options.valueOf row primaryKey) (options.info primaryKey))
    options.databaseType (options.info primaryKey)

/-- The key of the table row that a row of the grid shows. -/
def shownKey (row : List Value) : List (Option V) :=
  options.tableMeta.primaryKeys.map fun primaryKey =>
    reading.valueOf (resolve options.databaseType primaryKey) (keyLiteral options texts row primaryKey)

def keySchema (rowOk : Row Str V → Bool) : Schema Str V :=
  ⟨options.tableMeta.primaryKeys.map (resolve options.databaseType), rowOk⟩

theorem keyOf_eq {rowOk : Row Str V → Bool} (row : Row Str V) : (keySchema options rowOk).keyOf row =
    options.tableMeta.primaryKeys.map fun primaryKey =>
      row (resolve options.databaseType primaryKey) :=
  List.map_map

/-- A row of the grid that the edits touch. -/
def Touched (rowIndex : Nat) (row : List Value) : Prop :=
  options.rows[rowIndex]? = some row ∧
    (rowIndex ∈ options.dirtyRows.map (·.1) ∨ rowIndex ∈ options.deletedRows)

/-- A grid over a keyed table, with its edits. -/
structure KeyedGrid (rowOk : Row Str V → Bool) (table : List (Row Str V)) : Prop where
  relational : options.usesRelationalSave = true
  keyed : options.tableMeta.primaryKeys ≠ []
  valid : (keySchema options rowOk).Valid table
  /-- The dirty rows are a set, apart from the deleted rows. -/
  dirtyOnce : (options.dirtyRows.map (·.1)).Nodup
  disjoint : ∀ rowIndex ∈ options.dirtyRows.map (·.1), rowIndex ∉ options.deletedRows
  /-- Each column is changed at most once in a row. -/
  changedOnce : ∀ dirty ∈ options.dirtyRows, ((dirty.2.filterMap fun change =>
    options.columnAt change.1).map (resolve options.databaseType)).Nodup
  /-- A touched row shows a row of the table, whose key has no NULL. -/
  shown : ∀ rowIndex row, Touched options rowIndex row → ∃ tableRow ∈ table,
    (keySchema options rowOk).keyOf tableRow = shownKey options texts reading row ∧
      none ∉ shownKey options texts reading row
  /-- Different rows of the grid show different rows of the table. -/
  apart : ∀ rowIndex rowIndex' row row', Touched options rowIndex row →
    Touched options rowIndex' row' →
    shownKey options texts reading row = shownKey options texts reading row' → rowIndex = rowIndex'
  /-- SET lists with the same text are read in the same way. -/
  setsRead : ∀ dirty ∈ options.dirtyRows, ∀ dirty' ∈ options.dirtyRows,
    texts.sets (options.updateSets texts dirty.2) = texts.sets (options.updateSets texts dirty'.2) →
    reading.assignments (options.updateSets texts dirty.2) =
      reading.assignments (options.updateSets texts dirty'.2)

/-! ## The edited table -/

/-- The value that a cell is saved as. -/
def savedValue (column : Str) (value : Value) : Option V :=
  if emptyStringSavesAsNull value (options.info column) then none
  else reading.valueOf (resolve options.databaseType column) (texts.literal value (options.info column))

/-- The new value of a table column in a dirty row, if its update writes one. -/
def changedCell (changes : Changes) (column : Str) : Option (Option V) :=
  changes.findSome? fun (index, value) =>
    (options.columnAt index).bind fun changed =>
      if resolve options.databaseType changed = column ∧
          isGridUpdateOmittedColumn options.databaseType (options.info changed) changed
            options.primaryKeySet = false then
        some (savedValue options texts reading changed value)
      else none

/-- The changes of the dirty row that shows the table row. -/
def changesOf (rowOk : Row Str V → Bool) (tableRow : Row Str V) : Option Changes :=
  options.dirtyRows.findSome? fun (rowIndex, changes) =>
    (options.rows[rowIndex]?).bind fun row =>
      if shownKey options texts reading row = (keySchema options rowOk).keyOf tableRow then
        some changes
      else none

def editedRow (rowOk : Row Str V → Bool) (tableRow : Row Str V) : Row Str V :=
  match changesOf options texts reading rowOk tableRow with
  | some changes => fun column =>
    (changedCell options texts reading changes column).getD (tableRow column)
  | none => tableRow

def isDeleted (rowOk : Row Str V → Bool) (tableRow : Row Str V) : Bool :=
  options.deletedRows.any fun rowIndex => (options.rows[rowIndex]?).any fun row =>
    shownKey options texts reading row == (keySchema options rowOk).keyOf tableRow

/-- The cells of a new row that are inserted. Hive lists a value for every column of the
table, the other databases the cells that are not NULL and not left out. -/
def newCells (row : List Value) : List (Str × Value) :=
  if options.databaseType = some .hive then
    options.hiveTargetColumns.map fun column => (column, options.valueOf row column)
  else (options.mappedCells row).filter fun (column, value) =>
    value != .null &&
      !isGridInsertOmittedColumn options.databaseType (options.info column) column false &&
      !((options.info column).any isAutoGeneratedColumn && gridValueIsEmpty value)

def newRow (row : List Value) : Row Str V :=
  rowOf ((newCells options row).map fun (column, value) =>
    (resolve options.databaseType column, savedValue options texts reading column value))

/-- A new row is added if it has something to insert, and always on MySQL. -/
def isAdded (row : List Value) : Bool :=
  options.databaseType == some .mysql || (newCells options row).any fun cell => cell.2 != .null

/-- The table that the edits of the grid mean. -/
def savedTable (rowOk : Row Str V → Bool) (table : List (Row Str V)) : List (Row Str V) :=
  (table.filter fun tableRow => !isDeleted options texts reading rowOk tableRow).map
      (editedRow options texts reading rowOk) ++
    (options.newRows.filter (isAdded options)).map (newRow options texts reading)

/-! ## Conditions by key -/

theorem mem_zip_filterMap {β : Type} {f : α → Option β} {list : List α}
    (all : ∀ a ∈ list, (f a).isSome) {a : α} {b : β} (member : a ∈ list) (value : f a = some b) :
    (a, b) ∈ list.zip ((list.map f).filterMap id) := by
  induction list with
  | nil => cases member
  | cons head rest ih =>
    rw [forall_mem_cons] at all
    obtain ⟨first, firstValue⟩ := isSome_iff_exists.mp all.1
    simp only [map_cons, firstValue]
    obtain rfl | inRest := mem_cons.mp member
    · cases firstValue.symm.trans value
      exact mem_cons_self
    · exact mem_cons_of_mem _ (ih all.2 inRest)

theorem isSome_of_filterMap_nil {β : Type} {f : α → Option β} {list : List α}
    (none_missing : ((list.zip (list.map f)).filterMap fun (a, b) =>
      if b.isNone then some a else none) = []) : ∀ a ∈ list, (f a).isSome := by
  rw [← map_prod_left_eq_zip, filterMap_map, filterMap_eq_nil_iff] at none_missing
  intro a member
  simpa [isSome_iff_ne_none] using none_missing a member

variable {options texts}

/-- Validation leaves no key cell of a touched row empty. -/
theorem keyValue_ne_null (validated : options.validateDataGridSave = none)
    (touched : Touched options rowIndex row) {primaryKey : Str}
    (member : primaryKey ∈ options.tableMeta.primaryKeys) :
    options.valueOf row primaryKey ≠ .null := by
  have existing : options.validateExistingRowPrimaryKeys = none := by
    simp only [validateDataGridSave, or_eq_none_iff] at validated
    exact validated.2.1
  obtain ⟨atIndex, edited⟩ := touched
  have some : (options.dirtyRows.isEmpty && options.deletedRows.isEmpty) = false := by
    obtain dirty | deleted := edited
    · cases rows : options.dirtyRows with
      | nil => simp [rows] at dirty
      | cons => simp
    · cases rows : options.deletedRows with
      | nil => simp [rows] at deleted
      | cons => simp
  have keyed : options.tableMeta.primaryKeys.isEmpty = false := by
    simpa using ne_nil_of_mem member
  unfold validateExistingRowPrimaryKeys at existing
  simp only [keyed, some, Bool.or_self, false_eq_true, if_false] at existing
  split at existing
  · cases existing
  rename_i allFound
  simp only [Bool.not_eq_true', Bool.not_eq_false, List.isEmpty_iff] at allFound
  rw [findSome?_eq_none_iff] at existing
  have inRow := existing rowIndex (mem_append.mpr edited)
  simp only [atIndex, bind_some] at inRow
  have found := isSome_of_filterMap_nil allFound
  obtain ⟨index, atColumn⟩ := isSome_iff_exists.mp (found primaryKey member)
  have pair := mem_zip_filterMap found member atColumn
  simp only [missingKeyValueError, map_eq_none_iff,
    find?_eq_none] at inRow
  have notNull := inRow (primaryKey, index) pair
  simp only [valueOf, atColumn]
  simpa using notNull

variable {reading} {rowOk : Row Str V → Bool} {table : List (Row Str V)}

theorem buildPrimaryKeyWhere_eq (keyed : options.tableMeta.primaryKeys ≠ [])
    (values : ∀ primaryKey ∈ options.tableMeta.primaryKeys, options.valueOf row primaryKey ≠ .null) :
    options.buildPrimaryKeyWhere texts row = options.tableMeta.primaryKeys.map fun primaryKey =>
      { column := primaryKey, literal := some (keyLiteral options texts row primaryKey) } := by
  have nonempty : options.tableMeta.primaryKeys.isEmpty = false := by simpa using keyed
  simp only [buildPrimaryKeyWhere, nonempty]
  apply map_congr_left
  intro primaryKey member
  have notNull : (options.valueOf row primaryKey == .null) = false := by
    simpa using values primaryKey member
  simp [GridText.buildColumnPredicate, columnPredicate, notNull, keyLiteral]

/-- The condition of a row holds exactly for the table rows with its key. -/
theorem selects_keyWhere (keyed : options.tableMeta.primaryKeys ≠ [])
    (values : ∀ primaryKey ∈ options.tableMeta.primaryKeys, options.valueOf row primaryKey ≠ .null)
    (notNull : none ∉ shownKey options texts reading row) (tableRow : Row Str V) :
    (options.buildPrimaryKeyWhere texts row).all (reading.holds tableRow) =
      ((keySchema options rowOk).keyOf tableRow == shownKey options texts reading row) := by
  rw [buildPrimaryKeyWhere_eq keyed values, Bool.eq_iff_iff, List.all_map, List.all_eq_true]
  simp only [keyOf_eq, beq_iff_eq, shownKey, map_inj_left, comp_apply, reading.holds_some]
  constructor
  · intro all primaryKey member
    exact (all primaryKey member).1
  · intro equal primaryKey member
    refine ⟨equal primaryKey member, fun isNull => notNull ?_⟩
    exact mem_map.mpr ⟨primaryKey, member, isNull⟩

theorem KeyedGrid.notNull (grid : KeyedGrid options texts reading rowOk table)
    (touched : Touched options rowIndex row) : none ∉ shownKey options texts reading row := by
  obtain ⟨_, _, _, notNull⟩ := grid.shown rowIndex row touched
  exact notNull

/-- The key that a condition compares with. -/
def conditionKey (reading : Reading V texts options.databaseType) (condition : Conjunction) :
    List (Option V) :=
  condition.map fun c => c.literal.bind fun literal =>
    reading.valueOf (resolve options.databaseType c.column) literal

/-- The condition holds for the rows with its key. -/
def ByKey (reading : Reading V texts options.databaseType) (rowOk : Row Str V → Bool)
    (condition : Conjunction) : Prop :=
  ∀ tableRow, condition.all (reading.holds tableRow) =
    ((keySchema options rowOk).keyOf tableRow == conditionKey reading condition)

theorem byKey_keyWhere (grid : KeyedGrid options texts reading rowOk table)
    (validated : options.validateDataGridSave = none) (touched : Touched options rowIndex row) :
    conditionKey reading (options.buildPrimaryKeyWhere texts row) =
        shownKey options texts reading row ∧
      ByKey reading rowOk (options.buildPrimaryKeyWhere texts row) := by
  have values : ∀ primaryKey ∈ options.tableMeta.primaryKeys,
      options.valueOf row primaryKey ≠ .null :=
    fun _ member => keyValue_ne_null validated touched member
  have key : conditionKey reading (options.buildPrimaryKeyWhere texts row) =
      shownKey options texts reading row := by
    rw [buildPrimaryKeyWhere_eq grid.keyed values, conditionKey, List.map_map]
    rfl
  refine ⟨key, fun tableRow => ?_⟩
  rw [key]
  exact selects_keyWhere grid.keyed values (grid.notNull touched) tableRow

theorem translate_update {sets : List Assignment} {conditions : List Conjunction}
    (byKey : ∀ c ∈ conditions, ByKey reading rowOk c) :
    reading.translate (.update sets conditions) = joinedStatement (keySchema options rowOk)
      (reading.assignments sets, conditions.map (conditionKey reading)) := by
  rw [Reading.translate]
  congr 1
  funext tableRow
  rw [Reading.selects, List.any_map, Bool.eq_iff_iff, List.any_eq_true, List.any_eq_true]
  apply exists_congr
  intro c
  apply and_congr_right
  intro member
  rw [comp_apply, byKey c member tableRow]

/-! ## Dirty rows -/

theorem valueOf_formatGridSave (column : Str) (value : Value) :
    reading.valueOf (resolve options.databaseType column)
        (texts.formatGridSaveSqlLiteral value (options.info column)) =
      savedValue options texts reading column value := by
  unfold GridText.formatGridSaveSqlLiteral savedValue
  split
  · exact reading.null _
  · rfl

theorem valueIn_updateSets (changes : Changes) (column : Str) :
    valueIn (reading.assignments (options.updateSets texts changes)) column =
      changedCell options texts reading changes column := by
  simp only [updateSets,
    writableChanges, Reading.assignments, Reading.cell, changedCell,
    valueIn]
  induction changes with
  | nil => rfl
  | cons change rest ih =>
    obtain ⟨index, value⟩ := change
    simp only [filterMap_cons, findSome?_cons]
    cases changed : options.columnAt index with
    | none => simpa only [changed, bind_none] using ih
    | some name =>
      simp only [bind_some]
      by_cases omitted : isGridUpdateOmittedColumn options.databaseType (options.info name) name
          options.primaryKeySet = true
      · simpa only [omitted, if_true, Bool.true_eq_false, and_false, if_false] using ih
      simp only [omitted, false_eq_true, if_false, map_cons, findSome?_cons,
        valueOf_formatGridSave]
      by_cases equal : resolve options.databaseType name = column
      · simp [equal]
      · simpa only [equal, false_and, if_false] using ih

theorem updateSets_columns_sublist {changes : Changes} :
    ((reading.assignments (options.updateSets texts changes)).map (·.1)).Sublist
      ((changes.filterMap fun change => options.columnAt change.1).map
        (resolve options.databaseType)) := by
  unfold updateSets writableChanges
    Reading.assignments
  induction changes with
  | nil => simp
  | cons change rest ih =>
    obtain ⟨index, value⟩ := change
    simp only [filterMap_cons]
    cases changed : options.columnAt index with
    | none => simpa only using ih
    | some name =>
      by_cases omitted : isGridUpdateOmittedColumn options.databaseType (options.info name) name
          options.primaryKeySet = true
      · simp only [omitted, if_true, map_cons]
        exact ih.cons _
      · simp only [omitted, false_eq_true, if_false, map_cons, Reading.cell]
        exact ih.cons_cons _

/-- The assignment of the cells that a dirty row's update writes. -/
theorem assign_updateSets {changes : Changes}
    (changedOnce : ((changes.filterMap fun change => options.columnAt change.1).map
      (resolve options.databaseType)).Nodup) (tableRow : Row Str V) :
    assign (reading.assignments (options.updateSets texts changes)) tableRow = fun column =>
      (changedCell options texts reading changes column).getD (tableRow column) := by
  funext column
  have once : ((reading.assignments (options.updateSets texts changes)).map (·.1)).Nodup :=
    changedOnce.sublist updateSets_columns_sublist
  rw [assign, valueIn_reverse once, valueIn_updateSets]

variable (options texts reading) in
/-- The cells that the update of a dirty row sets, and the key of the row, unless the row is
out of range or nothing is written. -/
def editOf (dirty : Nat × Changes) : Option (Edit Str V) :=
  (options.rows[dirty.1]?).bind fun row =>
    if (options.updateSets texts dirty.2).isEmpty then none
    else some { key := shownKey options texts reading row
                sets := reading.assignments (options.updateSets texts dirty.2) }

variable (options texts reading) in
abbrev edits : List (Edit Str V) :=
  options.dirtyRows.filterMap (editOf options texts reading)

theorem editOf_eq_some {dirty : Nat × Changes} {edit : Edit Str V} :
    editOf options texts reading dirty = some edit ↔ ∃ row, options.rows[dirty.1]? = some row ∧
      (options.updateSets texts dirty.2).isEmpty = false ∧
      edit = { key := shownKey options texts reading row
               sets := reading.assignments (options.updateSets texts dirty.2) } := by
  unfold editOf
  rw [bind_eq_some_iff]
  apply exists_congr
  intro row
  apply and_congr_right
  intro _
  split
  · rename_i empty
    simp [empty, reduceCtorEq]
  rename_i nonempty
  simp only [nonempty, true_and, some.injEq]
  exact eq_comm

variable (options texts reading) in
/-- No two of the dirty rows show the same table row. -/
def KeysApart (dirtyRows : List (Nat × Changes)) : Prop :=
  dirtyRows.Pairwise fun first second => ∀ row row', options.rows[first.1]? = some row →
    options.rows[second.1]? = some row' →
    shownKey options texts reading row ≠ shownKey options texts reading row'

theorem mem_editOf_keys {key : List (Option V)}
    (member : key ∈ (dirtyRows.filterMap (editOf options texts reading)).map (·.key)) :
    ∃ dirty ∈ dirtyRows, ∃ row, options.rows[dirty.1]? = some row ∧
      shownKey options texts reading row = key := by
  obtain ⟨edit, editMem, rfl⟩ := mem_map.mp member
  obtain ⟨dirty, dirtyMem, isEdit⟩ := mem_filterMap.mp editMem
  obtain ⟨row, atIndex, _, rfl⟩ := editOf_eq_some.mp isEdit
  exact ⟨dirty, dirtyMem, row, atIndex, rfl⟩

theorem editOf_keys_nodup (keysApart : KeysApart options texts reading dirtyRows) :
    ((dirtyRows.filterMap (editOf options texts reading)).map (·.key)).Nodup := by
  unfold KeysApart at keysApart
  induction dirtyRows with
  | nil => simp
  | cons dirty rest ih =>
    rw [pairwise_cons] at keysApart
    obtain ⟨fromFirst, fromRest⟩ := keysApart
    rw [filterMap_cons]
    cases made : editOf options texts reading dirty with
    | none => exact ih fromRest
    | some edit =>
      simp only [map_cons, nodup_cons]
      refine ⟨?_, ih fromRest⟩
      intro again
      obtain ⟨later, laterMem, row', atLater, sameKey⟩ := mem_editOf_keys again
      obtain ⟨row, atIndex, _, rfl⟩ := editOf_eq_some.mp made
      exact fromFirst later laterMem row row' atIndex atLater sameKey.symm

/-- Editing a table row by the list of updates is replacing the written cells of the dirty
row that shows it. -/
theorem editRow_filterMap (keysApart : KeysApart options texts reading dirtyRows)
    (changedOnce : ∀ dirty ∈ dirtyRows, ((dirty.2.filterMap fun change =>
      options.columnAt change.1).map (resolve options.databaseType)).Nodup) {tableRow : Row Str V} :
    editRow (keySchema options rowOk) (dirtyRows.filterMap (editOf options texts reading))
        tableRow =
      match dirtyRows.findSome? (fun (rowIndex, changes) => (options.rows[rowIndex]?).bind fun row =>
        if shownKey options texts reading row = (keySchema options rowOk).keyOf tableRow then
          some changes else none) with
      | some changes => fun column =>
        (changedCell options texts reading changes column).getD (tableRow column)
      | none => tableRow := by
  unfold KeysApart at keysApart
  induction dirtyRows with
  | nil => rfl
  | cons dirty rest ih =>
    obtain ⟨rowIndex, changes⟩ := dirty
    rw [pairwise_cons] at keysApart
    obtain ⟨fromFirst, fromRest⟩ := keysApart
    have ih := ih fromRest (forall_mem_cons.mp changedOnce).2
    have once := changedOnce (rowIndex, changes) mem_cons_self
    rw [filterMap_cons, findSome?_cons]
    cases atIndex : options.rows[rowIndex]? with
    | none => simpa only [editOf, atIndex, bind_none] using ih
    | some row =>
      simp only [editOf, atIndex, bind_some] at ih ⊢
      by_cases shows : shownKey options texts reading row = (keySchema options rowOk).keyOf tableRow
      · simp only [shows, if_true]
        rw [← assign_updateSets once]
        by_cases empty : (options.updateSets texts changes).isEmpty = true
        · -- Nothing is written, and no later dirty row shows this table row.
          have nothing : options.updateSets texts changes = [] := by simpa using empty
          rw [nothing, editRow_of_notMem]
          · rfl
          · intro again
            obtain ⟨later, laterMem, row', atLater, sameKey⟩ := mem_editOf_keys again
            exact fromFirst later laterMem row row' atIndex atLater (shows.trans sameKey.symm)
        · simp only [empty, false_eq_true, if_false]
          simp [editRow]
      · simp only [shows, if_false]
        by_cases empty : (options.updateSets texts changes).isEmpty = true
        · simpa only [empty, if_true] using ih
        simp only [empty, false_eq_true, if_false]
        have other : (shownKey options texts reading row ==
            (keySchema options rowOk).keyOf tableRow) = false := by simpa using shows
        simpa only [editRow, find?_cons, other] using ih

theorem exists_of_mem_updates {update : List Assignment × Conjunction}
    (member : update ∈ options.updates texts) : ∃ dirty ∈ options.dirtyRows, ∃ row,
      options.rows[dirty.1]? = some row ∧
        (options.updateSets texts dirty.2, options.buildPrimaryKeyWhere texts row) = update := by
  obtain ⟨dirty, dirtyMem, made⟩ := mem_filterMap.mp member
  simp only at made
  split at made
  · rename_i row atIndex
    split at made
    · cases made
    · exact ⟨dirty, dirtyMem, row, atIndex, some.inj made⟩
  · cases made

section

variable (grid : KeyedGrid options texts reading rowOk table)
include grid

theorem KeyedGrid.keysApart : KeysApart options texts reading options.dirtyRows := by
  have once := grid.dirtyOnce
  rw [List.Nodup, pairwise_map] at once
  apply List.Pairwise.imp_of_mem _ once
  intro first second firstMem secondMem differ row row' atFirst atSecond same
  apply differ
  apply grid.apart first.1 second.1 row row' _ _ same
  · exact ⟨atFirst, .inl (mem_map_of_mem firstMem)⟩
  · exact ⟨atSecond, .inl (mem_map_of_mem secondMem)⟩

theorem KeyedGrid.keyPresent {key : List (Option V)}
    (member : key ∈ (edits options texts reading).map (·.key)) :
    ∃ tableRow ∈ table, (keySchema options rowOk).keyOf tableRow = key := by
  obtain ⟨dirty, dirtyMem, row, atIndex, shows⟩ := mem_editOf_keys member
  obtain ⟨tableRow, inTable, tableKey, _⟩ := grid.shown dirty.1 row
    ⟨atIndex, .inl (mem_map_of_mem dirtyMem)⟩
  exact ⟨tableRow, inTable, tableKey.trans shows⟩

theorem KeyedGrid.present : ∀ edit ∈ edits options texts reading,
      edit.Present (keySchema options rowOk) table := by
  intro edit member
  obtain ⟨tableRow, inTable, key⟩ := grid.keyPresent (mem_map_of_mem member)
  refine ⟨tableRow, inTable, key, ?_⟩
  obtain ⟨dirty, _, made⟩ := mem_filterMap.mp member
  obtain ⟨row, _, _, rfl⟩ := editOf_eq_some.mp made
  rfl

theorem KeyedGrid.editedRow_eq :
    editedRow options texts reading rowOk = editRow (keySchema options rowOk)
      (edits options texts reading) := by
  funext tableRow
  exact (editRow_filterMap grid.keysApart grid.changedOnce).symm

/-- An update leaves the rows alone that no dirty row shows. -/
theorem editedRow_of_deleted (deleted : rowIndex ∈ options.deletedRows)
    (atIndex : options.rows[rowIndex]? = some row) {tableRow : Row Str V}
    (shows : (keySchema options rowOk).keyOf tableRow = shownKey options texts reading row) :
    editedRow options texts reading rowOk tableRow = tableRow := by
  have notDirty : changesOf options texts reading rowOk tableRow = none := by
    unfold changesOf
    rw [findSome?_eq_none_iff]
    intro dirty dirtyMem
    have inDirty : dirty.1 ∈ options.dirtyRows.map (·.1) := mem_map_of_mem dirtyMem
    cases atDirty : options.rows[dirty.1]? with
    | none => simp [atDirty]
    | some row' =>
      have differs : shownKey options texts reading row' ≠ (keySchema options rowOk).keyOf tableRow := by
        intro same
        have equal := grid.apart dirty.1 rowIndex row' row ⟨atDirty, .inl inDirty⟩
          ⟨atIndex, .inr deleted⟩ (same.trans shows)
        exact grid.disjoint dirty.1 inDirty (equal ▸ deleted)
      simp [atDirty, differs]
  rw [editedRow, notDirty]

variable (validated : options.validateDataGridSave = none)
include validated

theorem updates_edits : (options.updates texts).map (fun (sets, condition) =>
        { key := conditionKey reading condition, sets := reading.assignments sets : Edit _ _ }) =
      edits options texts reading := by
  unfold updates
  rw [map_filterMap]
  apply filterMap_congr
  intro dirty dirtyMem
  obtain ⟨rowIndex, changes⟩ := dirty
  cases atIndex : options.rows[rowIndex]? with
  | none => simp [editOf, atIndex]
  | some row =>
    have touched : Touched options rowIndex row :=
      ⟨atIndex, .inl (mem_map_of_mem dirtyMem)⟩
    simp only [editOf, atIndex, bind_some]
    split
    · rfl
    · rw [map_some, (byKey_keyWhere grid validated touched).1]

theorem updates_byKey : ∀ update ∈ options.updates texts, ByKey reading rowOk update.2 := by
  intro update member
  obtain ⟨dirty, dirtyMem, row, atIndex, rfl⟩ := exists_of_mem_updates member
  exact (byKey_keyWhere grid validated
    ⟨atIndex, .inl (mem_map_of_mem dirtyMem)⟩).2

theorem translate_updates :
    ((options.updates texts).map fun (sets, condition) =>
        reading.translate (.update sets [condition])) =
      (edits options texts reading).map
        (Edit.statement (keySchema options rowOk)) := by
  rw [← updates_edits grid validated, List.map_map]
  apply map_congr_left
  intro update member
  obtain ⟨sets, condition⟩ := update
  have byKey := updates_byKey grid validated _ member
  have single : reading.translate (.update sets [condition]) =
      joinedStatement (keySchema options rowOk)
        (reading.assignments sets, [conditionKey reading condition]) :=
    translate_update (by simpa using byKey)
  simpa [joinedStatement, Edit.statement] using single

/-- What the updates of the dirty rows do, one by one. -/
theorem run_updates_iff {table' : List (Row Str V)} :
    (keySchema options rowOk).run ((options.updates texts).map fun (sets, condition) =>
        reading.translate (.update sets [condition])) table = some table' ↔
      (∀ n, (keySchema options rowOk).Valid (table.map (editRow (keySchema options rowOk)
        ((edits options texts reading).take n)))) ∧
      table' = table.map (editedRow options texts reading rowOk) := by
  rw [translate_updates grid validated, grid.editedRow_eq]
  exact run_edits_iff grid.valid (editOf_keys_nodup grid.keysApart) grid.present

/-! ## Deleted rows -/

theorem translate_deletes :
    ((options.deletes texts).map fun condition => reading.translate (.delete [condition])) =
      (options.deletedRowValues.map fun row tableRow =>
        (keySchema options rowOk).keyOf tableRow == shownKey options texts reading row).map
        .delete := by
  unfold deletes deletedRowValues
  rw [map_filterMap, map_filterMap, map_filterMap]
  apply filterMap_congr
  intro rowIndex deleted
  cases atIndex : options.rows[rowIndex]? with
  | none => rfl
  | some row =>
    have touched : Touched options rowIndex row := ⟨atIndex, .inr deleted⟩
    simp only [map_some, some.injEq, Reading.translate]
    congr 1
    funext tableRow
    simp only [Reading.selects, any_cons, any_nil, Bool.or_false]
    exact selects_keyWhere grid.keyed
      (fun primaryKey member => keyValue_ne_null validated touched member)
      (grid.notNull touched) tableRow

/-- The deletions find the rows by their key also after the updates. -/
theorem run_deletes_edited (valid : (keySchema options rowOk).Valid (table.map (editedRow options texts reading rowOk))) :
    (keySchema options rowOk).run ((options.deletes texts).map fun condition =>
        reading.translate (.delete [condition])) (table.map (editedRow options texts reading rowOk)) =
      some ((table.filter fun tableRow => !isDeleted options texts reading rowOk tableRow).map
        (editedRow options texts reading rowOk)) := by
  rw [translate_deletes grid validated, run_deletes valid, List.filter_map]
  congr 2
  apply filter_congr
  intro tableRow inTable
  simp only [comp_apply, Bool.not_eq_eq_eq_not, Bool.not_not, List.any_map]
  rw [Bool.eq_iff_iff]
  simp only [List.any_eq_true, comp_apply, beq_iff_eq, isDeleted,
    deletedRowValues, mem_filterMap, Option.any_eq_true]
  -- The row that a deleted grid row shows is not edited, so its key still finds only itself.
  have sameKey : ∀ rowIndex ∈ options.deletedRows, ∀ row, options.rows[rowIndex]? = some row →
      ((keySchema options rowOk).keyOf (editedRow options texts reading rowOk tableRow) =
          shownKey options texts reading row ↔
        (keySchema options rowOk).keyOf tableRow = shownKey options texts reading row) := by
    intro rowIndex deleted row atIndex
    obtain ⟨kept, keptMem, keptKey, _⟩ := grid.shown rowIndex row ⟨atIndex, .inr deleted⟩
    have unchanged := editedRow_of_deleted grid deleted atIndex keptKey
    rw [← keptKey]
    exact keyOf_edited_iff grid.valid.1 valid.1 keptMem unchanged inTable
  constructor
  · intro found
    obtain ⟨row, ⟨rowIndex, deleted, atIndex⟩, key⟩ := found
    exact ⟨rowIndex, deleted, row, atIndex,
      ((sameKey rowIndex deleted row atIndex).mp key).symm⟩
  · intro found
    obtain ⟨rowIndex, deleted, row, atIndex, key⟩ := found
    exact ⟨row, ⟨rowIndex, deleted, atIndex⟩,
      (sameKey rowIndex deleted row atIndex).mpr key.symm⟩

end

/-! ## New rows -/

variable (options texts reading) in
/-- The cells of a new row as the database reads them. -/
def readCells (row : List Value) : List (Str × Option V) :=
  (newCells options row).map fun (column, value) =>
    (resolve options.databaseType column, savedValue options texts reading column value)

theorem zipWith_cells (cells : List (Str × Value)) :
    List.zipWith reading.cell (cells.map (·.1)) (cells.map fun cell =>
        texts.formatGridSaveSqlLiteral cell.2 (options.info cell.1)) =
      cells.map fun (column, value) =>
        (resolve options.databaseType column, savedValue options texts reading column value) := by
  induction cells with
  | nil => rfl
  | cons cell cells ih =>
    simp only [map_cons, zipWith_cons_cons, ih]
    rw [Reading.cell, valueOf_formatGridSave]

theorem insertPairs_eq (notHive : options.databaseType ≠ some .hive) (row : List Value) :
    options.insertPairs row = newCells options row := by
  unfold insertPairs newCells
  rw [if_neg notHive]
  apply filter_congr
  intro cell _
  simp [Bool.and_comm, Bool.and_left_comm, Bool.or_comm]

theorem newCells_ne_null (notHive : options.databaseType ≠ some .hive) {cell : Str × Value}
    (member : cell ∈ newCells options row) : cell.2 ≠ .null := by
  unfold newCells at member
  rw [if_neg notHive, mem_filter] at member
  simp only [Bool.and_eq_true, bne_iff_ne] at member
  exact member.2.1.1

/-- A new row is inserted with its cells exactly if it is added. -/
theorem translate_insertStatement (row : List Value) :
    (options.insertStatement texts row).map reading.translate =
      if isAdded options row then some (.insert [readCells options texts reading row]) else none := by
  unfold insertStatement
  by_cases hive : options.databaseType = some .hive
  · have notMysql : (options.databaseType == some .mysql) = false := by rw [hive]; rfl
    have cells : options.hiveCells row = newCells options row := by
      rw [hiveCells, newCells, if_pos hive]
    have isHive : (options.databaseType == some .hive) = true := by simpa using hive
    simp only [isHive, if_true, buildHiveValuesInsert, cells,
      Bool.true_and, isAdded, notMysql, Bool.false_or]
    by_cases empty : newCells options row = []
    · simp [empty]
    have nonempty : (newCells options row).isEmpty = false := by simpa using empty
    simp only [nonempty, false_eq_true, if_false]
    have someValue : ((newCells options row).any fun cell => cell.2 != .null) =
        !(newCells options row).all fun cell => cell.2 == .null := by
      rw [not_all_eq_any_not]
      rfl
    rw [someValue]
    cases (newCells options row).all fun cell => cell.2 == .null with
    | true => rfl
    | false =>
      simp only [Bool.not_false, if_true, false_eq_true, if_false, map_some,
        Reading.translate, zipWith_cells, readCells]
  · have notHive : (options.databaseType == some .hive) = false := by simpa using hive
    simp only [notHive, false_eq_true, if_false, insertPairs_eq hive]
    by_cases empty : newCells options row = []
    · by_cases mysql : options.databaseType = some .mysql
      · simp [empty, mysql, isAdded, Reading.translate, readCells]
      · simp [empty, mysql, isAdded]
    have nonempty : (newCells options row).isEmpty = false := by simpa using empty
    have added : isAdded options row = true := by
      obtain ⟨cell, member⟩ := exists_mem_of_ne_nil _ empty
      simp only [isAdded, Bool.or_eq_true, List.any_eq_true]
      exact .inr ⟨cell, member, by simpa using newCells_ne_null hive member⟩
    simp only [nonempty, added, false_eq_true, if_false, if_true, map_some,
      Reading.translate, map_cons, map_nil, zipWith_cells, readCells]

theorem run_newRows {rows rows' : List (Row Str V)} (valid : (keySchema options rowOk).Valid rows)
    (ok : (keySchema options rowOk).run
      ((options.newRows.filterMap (options.insertStatement texts)).map reading.translate) rows =
      some rows') :
    rows' = rows ++ (options.newRows.filter (isAdded options)).map (newRow options texts reading) := by
  have batches : (options.newRows.filterMap (options.insertStatement texts)).map reading.translate =
      ((options.newRows.filter (isAdded options)).map fun row =>
        [readCells options texts reading row]).map .insert := by
    rw [map_filterMap, List.map_map]
    induction options.newRows with
    | nil => rfl
    | cons row rest ih =>
      rw [filterMap_cons, translate_insertStatement, filter_cons]
      by_cases added : isAdded options row = true
      · simp [added, ih]
      · simp [added, ih]
  rw [batches] at ok
  rw [((run_inserts_iff valid).mp ok).2.2]
  congr 1
  rw [← flatMap_def, map_flatMap, map_eq_flatMap]
  rfl

/-! ## The joined statements of MySQL -/

theorem joinedBatches_flatten (text : α → Str) (start separator : Str) (wrap : Bool)
    (batch parts : List α) :
    (joinedBatches text start separator wrap batch parts).flatten = batch ++ parts := by
  induction parts generalizing batch with
  | nil =>
    cases batch with
    | nil => rfl
    | cons => simp [joinedBatches]
  | cons part parts ih =>
    unfold joinedBatches
    simp only
    split
    · rw [flatten_cons, ih, singleton_append]
    · rw [ih, append_assoc, singleton_append]

/-- Whatever depends on the shared part by its text only is the same for the groups and for
the parts. -/
theorem groupConsecutive_flatMap {β γ : Type} {text : α → Str} {f : α → β → γ} {shares : α → Prop}
    (byText : ∀ a a', shares a → shares a' → text a = text a' → f a = f a') {list : List (α × β)}
    (inList : ∀ pair ∈ list, shares pair.1) :
    (groupConsecutive text none [] list).flatMap (fun group => group.2.map (f group.1)) =
      list.map fun pair => f pair.1 pair.2 := by
  have collected : ∀ (rest : List (α × β)) (shared : α) (group : List β), shares shared →
      (∀ pair ∈ rest, shares pair.1) →
      (groupConsecutive text (some shared) group rest).flatMap
          (fun group => group.2.map (f group.1)) =
        group.map (f shared) ++ rest.map fun pair => f pair.1 pair.2 := by
    intro rest
    induction rest with
    | nil => intro shared group _ _; simp [groupConsecutive]
    | cons pair rest ih =>
      intro shared group inGroup inRest
      rw [forall_mem_cons] at inRest
      unfold groupConsecutive
      simp only
      split
      · rw [flatMap_cons, ih _ _ inRest.1 inRest.2]
        simp
      · rename_i same
        rw [byText shared pair.1 inGroup inRest.1 (by simpa using same), ih _ _ inRest.1 inRest.2]
        simp
  cases list with
  | nil => rfl
  | cons pair rest =>
    rw [forall_mem_cons] at inList
    unfold groupConsecutive
    rw [collected rest pair.1 _ inList.1 inList.2]
    simp

theorem conditionBatches_flatMap {γ : Type} (options : DataGridSaveStatementOptions)
    (texts : GridText) (start : Str) (conditions : List Conjunction) (f : Conjunction → γ) :
    (options.conditionBatches texts start conditions).flatMap (fun batch => batch.map f) =
      conditions.map f := by
  rw [flatMap_def, ← map_flatten, conditionBatches,
    joinedBatches_flatten, nil_append]

variable (options texts reading) in
/-- The keys and the SET list of each joined update. -/
def updateBatches : List (List (Str × Option V) × List (List (Option V))) :=
  (groupConsecutive texts.sets none [] (options.updates texts)).flatMap fun (sets, conditions) =>
    (options.conditionBatches texts (texts.updateHead sets) conditions).map fun batch =>
      (reading.assignments sets, batch.map (conditionKey reading))

/-- A part of the batches that depends on the SET list and the key only is, in order, the
part of the single updates. -/
theorem updateBatches_flatMap {γ : Type} (grid : KeyedGrid options texts reading rowOk table)
    (f : List (Str × Option V) → List (Option V) → γ) :
    (updateBatches options texts reading).flatMap (fun batch => batch.2.map (f batch.1)) =
      (options.updates texts).map fun (sets, condition) =>
        f (reading.assignments sets) (conditionKey reading condition) := by
  have byText : ∀ sets sets' : List Assignment,
      (∃ dirty ∈ options.dirtyRows, options.updateSets texts dirty.2 = sets) →
      (∃ dirty ∈ options.dirtyRows, options.updateSets texts dirty.2 = sets') →
      texts.sets sets = texts.sets sets' →
      (fun condition => f (reading.assignments sets) (conditionKey reading condition)) =
        fun condition => f (reading.assignments sets') (conditionKey reading condition) := by
    intro sets sets' ofDirty ofDirty' sameText
    obtain ⟨dirty, dirtyMem, rfl⟩ := ofDirty
    obtain ⟨dirty', dirtyMem', rfl⟩ := ofDirty'
    rw [grid.setsRead dirty dirtyMem dirty' dirtyMem' sameText]
  have ofUpdate : ∀ update ∈ options.updates texts,
      ∃ dirty ∈ options.dirtyRows, options.updateSets texts dirty.2 = update.1 := by
    intro update member
    obtain ⟨dirty, dirtyMem, _, _, rfl⟩ := exists_of_mem_updates member
    exact ⟨dirty, dirtyMem, rfl⟩
  unfold updateBatches
  rw [flatMap_assoc, ← groupConsecutive_flatMap byText ofUpdate]
  apply flatMap_congr
  intro group _
  obtain ⟨sets, conditions⟩ := group
  rw [flatMap_map, ← conditionBatches_flatMap options texts (texts.updateHead sets)]
  simp only [List.map_map]
  rfl

theorem translate_joinedUpdates
    (byKey : ∀ update ∈ options.updates texts, ByKey reading rowOk update.2) :
    ((groupConsecutive texts.sets none [] (options.updates texts)).flatMap
        fun (sets, conditions) => (options.conditionBatches texts (texts.updateHead sets)
          conditions).map (.update sets)).map reading.translate =
      (updateBatches options texts reading).map
        (joinedStatement (keySchema options rowOk)) := by
  have inUpdates := @groupConsecutive_flatMap _ _ _ texts.sets
    (fun _ (condition : Conjunction) => condition) (fun _ => True) (fun _ _ _ _ _ => rfl)
    (options.updates texts) (fun _ _ => trivial)
  unfold updateBatches
  rw [map_flatMap, map_flatMap]
  apply flatMap_congr
  intro group groupMem
  obtain ⟨sets, conditions⟩ := group
  simp only [List.map_map]
  apply map_congr_left
  intro batch batchMem
  apply translate_update
  intro condition conditionMem
  have inGroup : condition ∈ conditions := by
    have flat := conditionBatches_flatMap options texts (texts.updateHead sets) conditions id
    rw [List.map_id] at flat
    rw [← flat, mem_flatMap]
    exact ⟨batch, batchMem, by simpa using conditionMem⟩
  have isUpdate : condition ∈ (options.updates texts).map fun pair => pair.2 := by
    rw [← inUpdates, mem_flatMap]
    exact ⟨_, groupMem, by simpa using inGroup⟩
  obtain ⟨update, updateMem, rfl⟩ := mem_map.mp isUpdate
  exact byKey update updateMem

/-- The updates have the effect of one statement for each row. -/
theorem run_updateStatements (grid : KeyedGrid options texts reading rowOk table)
    (validated : options.validateDataGridSave = none) :
    (keySchema options rowOk).run ((options.updateStatements texts).map reading.translate) table =
      (keySchema options rowOk).run ((options.updates texts).map fun (sets, condition) =>
        reading.translate (.update sets [condition])) table := by
  unfold updateStatements
  split
  · have keys : (updateBatches options texts reading).flatMap (·.2) =
        (edits options texts reading).map (·.key) := by
      have flat := updateBatches_flatMap grid fun _ key => key
      rw [← updates_edits grid validated, List.map_map]
      simpa [comp_def] using flat
    have present : ∀ key ∈ (updateBatches options texts reading).flatMap (·.2),
        ∃ tableRow ∈ table, (keySchema options rowOk).keyOf tableRow = key := by
      intro key member
      rw [keys] at member
      exact grid.keyPresent member
    rw [translate_joinedUpdates (updates_byKey grid validated),
      run_batches grid.valid (keys ▸ editOf_keys_nodup grid.keysApart) present,
      translate_updates grid validated, ← updates_edits grid validated, List.map_map]
    congr 1
    apply (updateBatches_flatMap grid fun sets key =>
      Statement.update sets fun row => (keySchema options rowOk).keyOf row == key).trans
    simp [comp_def, Edit.statement]
  · rw [List.map_map]
    rfl

theorem run_deleteStatements {rows : List (Row Str V)}
    (valid : (keySchema options rowOk).Valid rows) :
    (keySchema options rowOk).run ((options.deleteStatements texts).map reading.translate) rows =
      (keySchema options rowOk).run ((options.deletes texts).map fun condition =>
        reading.translate (.delete [condition])) rows := by
  unfold deleteStatements
  split
  · have joined : (((options.conditionBatches texts texts.deleteHead (options.deletes texts)).map
        GridStatement.delete).map reading.translate) =
        ((options.conditionBatches texts texts.deleteHead (options.deletes texts)).map
          reading.selects).map .delete := by
      simp [Reading.translate]
    have single : ((options.deletes texts).map fun condition =>
        reading.translate (.delete [condition])) =
        ((options.deletes texts).map fun condition => reading.selects [condition]).map .delete := by
      simp [Reading.translate]
    rw [joined, single, run_deletes valid, run_deletes valid]
    congr 2
    funext row
    have flat := conditionBatches_flatMap options texts texts.deleteHead (options.deletes texts)
      fun condition => reading.selects [condition]
    rw [← flat, any_flatMap]
    simp [Reading.selects, comp_def]
  · rw [List.map_map]
    rfl

/-! ## The whole save -/

/-- One statement for each dirty, deleted and new row. -/
def rowStatements (options : DataGridSaveStatementOptions) (texts : GridText) :
    List GridStatement :=
  (options.updates texts).map (fun (sets, condition) => .update sets [condition]) ++
    (options.deletes texts).map (fun condition => .delete [condition]) ++
    options.newRows.filterMap (options.insertStatement texts)

theorem run_save_eq (grid : KeyedGrid options texts reading rowOk table)
    (validated : options.validateDataGridSave = none) :
    (keySchema options rowOk).run
        ((options.buildDataGridSaveStatements texts).map reading.translate) table =
      (keySchema options rowOk).run
        ((rowStatements options texts).map reading.translate) table := by
  simp only [buildDataGridSaveStatements, rowStatements,
    map_append, run_append, run_updateStatements grid validated, List.map_map]
  congr 1
  apply Option.bind_congr
  intro updated runUpdates
  exact run_deleteStatements (run_valid grid.valid runUpdates)

/-- An accepted save leaves the edited table, and the tables between its updates are valid. -/
theorem run_save {table' : List (Row Str V)} (grid : KeyedGrid options texts reading rowOk table)
    (validated : options.validateDataGridSave = none) (ok : (keySchema options rowOk).run
      ((options.buildDataGridSaveStatements texts).map reading.translate) table = some table') :
    (∀ n, (keySchema options rowOk).Valid (table.map (editRow (keySchema options rowOk)
      ((edits options texts reading).take n)))) ∧
    table' = savedTable options texts reading rowOk table := by
  rw [run_save_eq grid validated, rowStatements, map_append, map_append,
    run_append, run_append, bind_eq_some_iff] at ok
  obtain ⟨kept, ok, inserted⟩ := ok
  rw [bind_eq_some_iff] at ok
  obtain ⟨updated, runUpdates, runDeletes⟩ := ok
  rw [List.map_map] at runUpdates runDeletes
  obtain ⟨between, edited⟩ := (run_updates_iff grid validated).mp runUpdates
  have validUpdated := run_valid grid.valid runUpdates
  have validKept := run_valid validUpdated runDeletes
  subst edited
  have isKept : kept = (table.filter fun tableRow =>
      !isDeleted options texts reading rowOk tableRow).map
        (editedRow options texts reading rowOk) :=
    some.inj (runDeletes.symm.trans (run_deletes_edited grid validated validUpdated))
  refine ⟨between, ?_⟩
  rw [run_newRows validKept inserted, isKept, savedTable]

/-- The touched rows of a given grid can be checked one by one. -/
theorem forall_touched {p : Nat → List Value → Prop} :
    (∀ rowIndex row, Touched options rowIndex row → p rowIndex row) ↔
      ∀ rowIndex ∈ options.dirtyRows.map (·.1) ++ options.deletedRows,
        ∀ row ∈ (options.rows[rowIndex]?).toList, p rowIndex row := by
  simp only [Touched, mem_append, mem_toList, and_imp]
  exact ⟨fun all rowIndex touched row atIndex => all rowIndex row atIndex touched,
    fun all rowIndex row atIndex touched => all rowIndex touched row atIndex⟩

theorem forall_touched_pairs {p : Nat → Nat → List Value → List Value → Prop} :
    (∀ rowIndex rowIndex' row row', Touched options rowIndex row →
      Touched options rowIndex' row' → p rowIndex rowIndex' row row') ↔
    ∀ rowIndex row, Touched options rowIndex row →
      ∀ rowIndex' row', Touched options rowIndex' row' → p rowIndex rowIndex' row row' :=
  ⟨fun all _ _ first _ _ second => all _ _ _ _ first second,
    fun all _ _ _ _ first second => all _ _ first _ _ second⟩

end

/-! ## Examples of grids -/

/-- Names and numbers as they are, texts in quotes. -/
def plainTexts : GridText where
  identifier := id
  table := "t".toList
  literal value _ := match value with
    | .null => "NULL".toList
    | .string text => '\'' :: text ++ ['\'']
    | value => value.jsonStringify
  literal_null _ := rfl

def plainReading (databaseType : Option DatabaseType) : Reading Str plainTexts databaseType where
  valueOf _ literal := if literal == "NULL".toList then none else some literal
  null _ := rfl

/-- A grid over the columns id and name of a table with the key id. -/
def namesGrid (databaseType : DatabaseType) (rows : List (List Value))
    (dirtyRows : List (Nat × Changes)) (deletedRows : List Nat) (newRows : List (List Value)) :
    DataGridSaveStatementOptions :=
  { databaseType := some databaseType
    tableMeta := { primaryKeys := ["id".toList], columns := none }
    columns := ["id".toList, "name".toList]
    sourceColumns := none
    rows, dirtyRows, deletedRows, newRows }

def text (s : String) : Value := .string s.toList

def nameRow (id name : String) : Row Str Str := fun column =>
  if column = "id".toList then some id.toList
  else if column = "name".toList then some name.toList else none

def idAndName (row : Row Str Str) : Option Str × Option Str :=
  (row "id".toList, row "name".toList)

/-- The statements of a save, run on a table. -/
def runSave (options : DataGridSaveStatementOptions) (table : List (Row Str Str)) :
    Option (List (Row Str Str)) :=
  (keySchema options fun _ => true).run ((options.buildDataGridSaveStatements plainTexts).map
    (plainReading options.databaseType).translate) table

/-- Two rows with the same change, a row with a new key, a deleted and a new row. -/
def mixedGrid : DataGridSaveStatementOptions :=
  namesGrid .mysql
    [[text "1", text "a"], [text "2", text "b"], [text "3", text "c"], [text "4", text "d"]]
    [(0, [(1, text "x")]), (1, [(1, text "x")]), (2, [(0, text "9")])] [3] [[text "7", text "n"]]

def mixedTable : List (Row Str Str) :=
  [nameRow "'1'" "'a'", nameRow "'2'" "'b'", nameRow "'3'" "'c'", nameRow "'4'" "'d'"]

theorem mixedGrid_keyed : KeyedGrid mixedGrid plainTexts (plainReading _)
    (fun _ => true) mixedTable := by
  constructor
  case shown => exact forall_touched.mpr (by decide)
  case apart => simp only [forall_touched_pairs, forall_touched]; decide
  all_goals decide

/-- A change of the key on ClickHouse. -/
def clickhouseGrid : DataGridSaveStatementOptions :=
  namesGrid .clickHouse [[text "1", text "a"]] [(0, [(0, text "5"), (1, text "x")])] [] []

/-- A new row with a text search column on PostgreSQL. -/
def tsvectorGrid : DataGridSaveStatementOptions :=
  { namesGrid .postgres [] [] [] [[text "5", text "x"]] with
    tableMeta := { primaryKeys := ["id".toList], columns := some [
      { name := "name".toList, dataType := "tsvector".toList, isNullable := true
        isPrimaryKey := false, columnDefault := none, extra := none }] } }

/-- A new row without values. -/
def emptyRowGrid : DataGridSaveStatementOptions :=
  namesGrid .postgres [] [] [] [[.null, .null]]

end Dbx.Guarantees.GridSave
