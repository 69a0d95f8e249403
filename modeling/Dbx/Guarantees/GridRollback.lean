import Mathlib.Data.List.Pairwise
import Dbx.Guarantees.GridSave

/-!
# What the rollback of a grid save does

The statements of `buildDataGridRollbackStatements`, run on the table that a save has
left. The new rows are deleted, the deleted rows are inserted again, and then the dirty
rows are updated back, in the order of the save.

That order is the weak point: a dirty row that goes back to its old key is refused if a
later dirty row has taken this key over. The rollback restores the table exactly if no
dirty row has taken over the key of another one, and no deleted row has a value that the
result does not show (`rollback_restores_iff`).
-/
namespace Dbx.Guarantees.GridRollback

set_option linter.unusedSectionVars false

open Dbx.Lib.Text Dbx.Lib.Table Dbx.Source Dbx.Source.DataGrid DataGridSaveStatementOptions Function
  Dbx.Guarantees.GridSave Schema List Option

variable {row : List Value} {index : Nat} {value : Value} {changes : Changes}

section

variable {V : Type} [DecidableEq V] (options : DataGridSaveStatementOptions) (texts : GridText)
  (reading : Reading V texts options.databaseType)

/-- A grid whose columns all have explicit values, over a table that refuses repeated keys. -/
structure Explicit (rowOk : Row Str V → Bool) (table : List (Row Str V)) : Prop where
  /-- The keys of ClickHouse and Hive may repeat. -/
  rejects : options.databaseType ≠ some .clickHouse ∧ options.databaseType ≠ some .hive
  keysShown : ∀ primaryKey ∈ options.tableMeta.primaryKeys, ∃ index column,
    findColumnIndex options.databaseType options.effectiveColumns primaryKey = some index ∧
      options.effectiveColumns[index]? = some (some column) ∧
      resolve options.databaseType column = resolve options.databaseType primaryKey
  /-- No column is filled by the database. -/
  notFilled : ∀ column, some column ∈ options.effectiveColumns →
    isGridInsertOmittedColumn options.databaseType (options.info column) column false = false ∧
      (options.info column).any isAutoGeneratedColumn = false
  keyNotNull : ∀ row, rowOk row = true → none ∉ (keySchema options rowOk).keyOf row
  deletedOnce : options.deletedRows.Nodup
  newValues : ∀ row ∈ options.newRows, ∀ cell ∈ options.mappedCells row,
    savedValue options texts reading cell.1 cell.2 ≠ none
  /-- A changed cell is saved as NULL only if it is empty. -/
  changedValues : ∀ dirty ∈ options.dirtyRows, ∀ change ∈ dirty.2, change.2 ≠ .null →
    ∀ column, options.columnAt change.1 = some column →
      reading.valueOf (resolve options.databaseType column)
        (texts.literal change.2 (options.info column)) ≠ none
  /-- A touched row shows the cells of its table row. -/
  shows : ∀ rowIndex row, Touched options rowIndex row → ∀ tableRow ∈ table,
    (keySchema options rowOk).keyOf tableRow = shownKey options texts reading row →
    ∀ index column, options.effectiveColumns[index]? = some (some column) →
      reading.valueOf (resolve options.databaseType column)
          (texts.literal (row.getD index .null) (options.info column)) =
        tableRow (resolve options.databaseType column)
  /-- A JSON text denotes the same value with and without the cast. -/
  cast : ∀ column literal, reading.valueOf (resolve options.databaseType column)
      (mysqlJsonPredicateLiteral literal options.databaseType (options.info column)) =
    reading.valueOf (resolve options.databaseType column) literal

/-- The table columns that the result shows. -/
def shownColumns : List Str :=
  (options.effectiveColumns.filterMap id).map (resolve options.databaseType)

variable {options texts reading}

/-! ## Columns -/

/-- Names of the same table column have the same description. -/
theorem info_congr {column column' : Str}
    (same : resolve options.databaseType column = resolve options.databaseType column') :
    options.info column = options.info column' := by
  have lower : column.map Char.toLower = column'.map Char.toLower := by
    unfold resolve at same
    split at same
    · have again := congrArg (List.map Char.toLower) same
      simpa [normalizeColumnName, toAsciiUppercase, comp_def, toLower_toUpper] using again
    · rw [same]
  simp only [info, columnInfoFor, eqIgnoreAsciiCase, lower]

theorem mem_mappedCells {cell : Str × Value} :
    cell ∈ options.mappedCells row ↔ ∃ index,
      options.effectiveColumns[index]? = some (some cell.1) ∧ cell.2 = row.getD index .null := by
  unfold mappedCells
  simp only [mem_filterMap, Prod.exists, mem_zipIdx_iff_getElem?, map_eq_some_iff]
  constructor
  · intro found
    obtain ⟨_, index, atIndex, column, rfl, rfl⟩ := found
    exact ⟨index, atIndex, rfl⟩
  · intro found
    obtain ⟨index, atIndex, value⟩ := found
    exact ⟨_, index, atIndex, cell.1, rfl, by rw [← value]⟩

theorem mappedCell_mem {column : Str}
    (atIndex : options.effectiveColumns[index]? = some (some column)) (row : List Value) :
    (column, row.getD index .null) ∈ options.mappedCells row :=
  mem_mappedCells.mpr ⟨index, atIndex, rfl⟩

theorem mappedCells_columns (row : List Value) :
    (options.mappedCells row).map (·.1) = options.effectiveColumns.filterMap id := by
  unfold mappedCells
  rw [List.map_filterMap]
  calc
    _ = (options.effectiveColumns.zipIdx.map (·.1)).filterMap id := by
      rw [filterMap_map]
      congr 1
      funext pair
      obtain ⟨column, index⟩ := pair
      cases column <;> rfl
    _ = _ := by rw [zipIdx_map_fst]

/-- A table column is shown at one position. -/
theorem index_unique (columnsOnce : (shownColumns options).Nodup) {index' : Nat}
    {column column' : Str} (atIndex : options.effectiveColumns[index]? = some (some column))
    (atIndex' : options.effectiveColumns[index']? = some (some column'))
    (same : resolve options.databaseType column = resolve options.databaseType column') :
    index = index' := by
  unfold shownColumns at columnsOnce
  rw [List.Nodup, pairwise_map, pairwise_filterMap, pairwise_iff_getElem]
    at columnsOnce
  obtain ⟨bound, here⟩ := List.getElem?_eq_some_iff.mp atIndex
  obtain ⟨bound', here'⟩ := List.getElem?_eq_some_iff.mp atIndex'
  obtain before | equal | behind := Nat.lt_trichotomy index index'
  · exact absurd same (columnsOnce _ _ bound bound' before _ here _ here')
  · exact equal
  · exact absurd same.symm (columnsOnce _ _ bound' bound behind _ here' _ here)

/-! ## Saved values and the conditions on them -/

theorem savedValue_null {column : Str} : savedValue options texts reading column .null = none := by
  unfold savedValue
  split
  · rfl
  · rw [texts.literal_null]
    exact reading.null _

theorem savedValue_eq {column : Str}
    (notNull : savedValue options texts reading column value ≠ none) :
    emptyStringSavesAsNull value (options.info column) = false ∧ value ≠ .null ∧
      savedValue options texts reading column value =
        reading.valueOf (resolve options.databaseType column)
          (texts.literal value (options.info column)) := by
  have notEmpty : emptyStringSavesAsNull value (options.info column) = false := by
    rw [← Bool.not_eq_true]
    intro empty
    exact notNull (by rw [savedValue, if_pos empty])
  refine ⟨notEmpty, ?_, by rw [savedValue, notEmpty]; rfl⟩
  intro isNull
  exact notNull (isNull ▸ savedValue_null)

section

variable {rowOk : Row Str V → Bool} {table : List (Row Str V)}
  (explicit : Explicit options texts reading rowOk table)
include explicit

/-- The condition on a saved cell holds for the saved value. A value other than NULL that
denotes nothing is found nowhere. -/
theorem holds_savePredicate {column : Str} {row : Row Str V} :
    reading.holds row (texts.buildSaveColumnPredicate options.databaseType column value
        (options.info column) true) = true ↔
      row (resolve options.databaseType column) = savedValue options texts reading column value ∧
        (savedValue options texts reading column value = none →
          value = .null ∨ emptyStringSavesAsNull value (options.info column) = true) := by
  unfold GridText.buildSaveColumnPredicate columnPredicate
  by_cases isNull : (value == .null || emptyStringSavesAsNull value (options.info column)) = true
  · have saved : savedValue options texts reading column value = none := by
      obtain isNull | empty := Bool.or_eq_true_iff.mp isNull
      · rw [eq_of_beq isNull, savedValue_null]
      · rw [savedValue, if_pos empty]
    rw [if_pos isNull, saved, Reading.holds]
    simp_all
  rw [if_neg isNull]
  simp only [Bool.or_eq_true, beq_iff_eq, not_or, Bool.not_eq_true] at isNull
  simp only [isNull, Bool.false_eq_true, false_or, ← valueOf_formatGridSave]
  split
  · exact reading.holds_some
  split
  · exact reading.holds_some
  · rw [reading.holds_some, explicit.cast]

end

/-! ## New rows -/

section NewRows

variable {rowOk : Row Str V → Bool} {table : List (Row Str V)}
  (explicit : Explicit options texts reading rowOk table)
  (keyed : options.tableMeta.primaryKeys ≠ [])
  (columnsOnce : (shownColumns options).Nodup) {row : List Value} (isNew : row ∈ options.newRows)

include explicit in
theorem rowid_not_shown {column : Str} (shown : some column ∈ options.effectiveColumns) :
    isOracleRowId options.databaseType column = false := by
  have omitted := (explicit.notFilled column shown).1
  simp only [isGridInsertOmittedColumn, Bool.or_eq_false_iff] at omitted
  exact omitted.1.1

include explicit isNew

theorem newCells_eq : newCells options row = options.mappedCells row := by
  rw [newCells, if_neg explicit.rejects.2, filter_eq_self]
  intro cell member
  obtain ⟨index, atIndex, _⟩ := mem_mappedCells.mp member
  obtain ⟨written, explicitValue⟩ := explicit.notFilled cell.1 (mem_of_getElem? atIndex)
  have notNull := (savedValue_eq (explicit.newValues row isNew cell member)).2.1
  simp [written, explicitValue, notNull]

/-- On MySQL the keys of a new row are known. -/
theorem buildMysqlInsertRollbackWhere_eq (mysql : options.databaseType = some .mysql)
    (keyed : options.tableMeta.primaryKeys ≠ []) :
    options.buildMysqlInsertRollbackWhere texts row =
      some (options.buildPrimaryKeyWhere texts row) := by
  have nonempty : options.tableMeta.primaryKeys.isEmpty = false := by simpa using keyed
  unfold buildMysqlInsertRollbackWhere
  rw [if_neg]
  simp only [nonempty, Bool.false_or, Bool.not_eq_true', Bool.not_eq_false, List.all_eq_true]
  intro primaryKey isKey
  obtain ⟨index, column, found, atIndex, same⟩ := explicit.keysShown primaryKey isKey
  have position : options.effectiveColumns.findIdx? (· == some primaryKey) = some index := by
    unfold findColumnIndex at found
    split at found
    · rename_i exact_index
      rw [exact_index, found]
    · simp [mysql, driftsInCase] at found
  obtain ⟨notEmpty, notNull, _⟩ := savedValue_eq
    (explicit.newValues row isNew _ (mappedCell_mem atIndex row))
  obtain ⟨written, explicitValue⟩ := explicit.notFilled column (mem_of_getElem? atIndex)
  simp only [isGridInsertOmittedColumn, Bool.or_eq_false_iff, Bool.not_false, Bool.true_and]
    at written
  have isNotNull : (row.getD index .null == .null) = false := by simpa using notNull
  rw [position]
  simp only [← info_congr same, isNotNull, notEmpty, explicitValue]
  cases description : options.info column with
  | none => rfl
  | some info =>
    rw [description] at written
    simp [written.2]

include columnsOnce

theorem newRow_cell {cell : Str × Value} (member : cell ∈ options.mappedCells row) :
    newRow options texts reading row (resolve options.databaseType cell.1) =
      savedValue options texts reading cell.1 cell.2 := by
  unfold newRow rowOf
  rw [newCells_eq explicit isNew]
  apply assign_of_mem
  · rw [List.map_map]
    have columns : (options.mappedCells row).map ((·.1) ∘ fun (cell : Str × Value) =>
        (resolve options.databaseType cell.1,
          savedValue options texts reading cell.1 cell.2)) = shownColumns options := by
      rw [shownColumns, ← mappedCells_columns row, List.map_map]
      rfl
    rw [columns]
    exact columnsOnce
  · exact mem_map_of_mem member

/-- The value of a new row in a key column. -/
theorem newRow_keyCell {primaryKey : Str} (isKey : primaryKey ∈ options.tableMeta.primaryKeys) :
    options.valueOf row primaryKey ≠ .null ∧
      newRow options texts reading row (resolve options.databaseType primaryKey) =
        reading.valueOf (resolve options.databaseType primaryKey)
          (keyLiteral options texts row primaryKey) ∧
      newRow options texts reading row (resolve options.databaseType primaryKey) ≠ none := by
  obtain ⟨index, column, found, atIndex, same⟩ := explicit.keysShown primaryKey isKey
  have member := mappedCell_mem atIndex row
  have notNull := explicit.newValues row isNew _ member
  obtain ⟨_, nonNull, value_eq⟩ := savedValue_eq notNull
  have value : options.valueOf row primaryKey = row.getD index .null := by
    rw [valueOf, found]
  have cell := newRow_cell explicit columnsOnce isNew member
  rw [← same, cell]
  refine ⟨value ▸ nonNull, ?_, notNull⟩
  rw [value_eq, keyLiteral, value, same, explicit.cast, ← same, info_congr same]

theorem newRow_key : (keySchema options rowOk).keyOf (newRow options texts reading row) =
    shownKey options texts reading row := by
  rw [keyOf_eq, shownKey, map_inj_left]
  intro primaryKey isKey
  exact (newRow_keyCell explicit columnsOnce isNew isKey).2.1

include keyed

omit columnsOnce in
theorem exists_keyCell : ∃ cell ∈ options.mappedCells row, cell.2 ≠ .null := by
  obtain ⟨primaryKey, isKey⟩ := exists_mem_of_ne_nil _ keyed
  obtain ⟨index, column, _, atIndex, _⟩ := explicit.keysShown primaryKey isKey
  have member := mappedCell_mem atIndex row
  exact ⟨_, member, (savedValue_eq (explicit.newValues row isNew _ member)).2.1⟩

omit columnsOnce in
theorem isAdded_new : isAdded options row = true := by
  obtain ⟨cell, member, notNull⟩ := exists_keyCell explicit keyed isNew
  simp only [isAdded, newCells_eq explicit isNew, Bool.or_eq_true, List.any_eq_true, bne_iff_ne]
  exact .inr ⟨cell, member, notNull⟩

/-- The undo of a new row finds the row, and no row with another key. -/
theorem undoInsert_spec : ∃ condition, options.undoInsert texts row = some (.delete [condition]) ∧
    reading.selects [condition] (newRow options texts reading row) = true ∧
    ∀ tableRow, reading.selects [condition] tableRow = true →
      (keySchema options rowOk).keyOf tableRow =
        (keySchema options rowOk).keyOf (newRow options texts reading row) := by
  have key := newRow_key explicit columnsOnce isNew
  simp only [Reading.selects, any_cons, any_nil, Bool.or_false]
  unfold undoInsert
  split
  · -- MySQL finds the row by its key.
    rename_i mysql
    have values : ∀ primaryKey ∈ options.tableMeta.primaryKeys,
        options.valueOf row primaryKey ≠ .null :=
      fun _ isKey => (newRow_keyCell explicit columnsOnce isNew isKey).1
    have notNull : none ∉ shownKey options texts reading row := by
      rw [← key, keyOf_eq, List.mem_map]
      intro found
      obtain ⟨primaryKey, isKey, isNull⟩ := found
      exact (newRow_keyCell explicit columnsOnce isNew isKey).2.2 isNull
    have selects : ∀ tableRow, (options.buildPrimaryKeyWhere texts row).all
        (reading.holds tableRow) =
          ((keySchema options rowOk).keyOf tableRow == shownKey options texts reading row) :=
      selects_keyWhere keyed values notNull
    refine ⟨options.buildPrimaryKeyWhere texts row, ?_, ?_, ?_⟩
    · rw [buildMysqlInsertRollbackWhere_eq explicit isNew (by simpa using mysql) keyed]
      rfl
    · rw [selects, key, beq_self_eq_true]
    · intro tableRow selected
      rw [selects, beq_iff_eq] at selected
      rw [selected, key]
  · -- The other databases compare all the cells.
    have conditions : options.buildSaveRowWhere texts row =
        (options.mappedCells row).map fun cell => texts.buildSaveColumnPredicate
          options.databaseType cell.1 cell.2 (options.info cell.1) true := by
      rw [buildSaveRowWhere,
        rowConditions, filter_eq_self.mpr]
      intro cell member
      obtain ⟨index, atIndex, _⟩ := mem_mappedCells.mp member
      rw [rowid_not_shown explicit (mem_of_getElem? atIndex)]
      rfl
    obtain ⟨cell, cellMem, _⟩ := exists_keyCell explicit keyed isNew
    have nonempty : (options.buildSaveRowWhere texts row).isEmpty = false := by
      rw [conditions, isEmpty_map]
      simpa using ne_nil_of_mem cellMem
    simp only [nonempty, Bool.false_eq_true, if_false]
    refine ⟨_, rfl, ?_, ?_⟩
    · rw [conditions, List.all_map, List.all_eq_true]
      intro cell member
      exact (holds_savePredicate explicit).mpr ⟨newRow_cell explicit columnsOnce isNew member,
        fun isNull => absurd isNull (explicit.newValues row isNew cell member)⟩
    · intro tableRow selected
      rw [conditions, List.all_map, List.all_eq_true] at selected
      rw [keyOf_eq, keyOf_eq, map_inj_left]
      intro primaryKey isKey
      obtain ⟨index, column, _, atIndex, same⟩ := explicit.keysShown primaryKey isKey
      have member := mappedCell_mem atIndex row
      rw [← same, newRow_cell explicit columnsOnce isNew member]
      exact ((holds_savePredicate explicit).mp (selected _ member)).1

end NewRows

/-- The undo of the new rows removes them. -/
theorem run_undoInserts {rowOk : Row Str V → Bool} {table kept : List (Row Str V)}
    (explicit : Explicit options texts reading rowOk table)
    (keyed : options.tableMeta.primaryKeys ≠ [])
    (columnsOnce : (shownColumns options).Nodup)
    (valid : (keySchema options rowOk).Valid
      (kept ++ options.newRows.map (newRow options texts reading))) :
    (keySchema options rowOk).run
        ((options.newRows.filterMap (options.undoInsert texts)).map reading.translate)
        (kept ++ options.newRows.map (newRow options texts reading)) = some kept := by
  have spec := fun row (isNew : row ∈ options.newRows) =>
    undoInsert_spec explicit keyed columnsOnce isNew
  choose! condition undo finds byKey using spec
  have statements : (options.newRows.filterMap (options.undoInsert texts)).map reading.translate =
      (options.newRows.map fun row => reading.selects [condition row]).map .delete := by
    rw [List.map_filterMap, List.map_map, ← List.filterMap_eq_map]
    apply filterMap_congr
    intro row isNew
    simp [undo row isNew, Reading.translate]
  rw [statements, run_deletes valid]
  simp only [List.any_map, comp_def]
  rw [filter_added valid finds byKey]

/-! ## Deleted rows -/

section

variable (options texts reading)

/-- The cells with which a deleted row is inserted again. -/
def restoreTuple (row : List Value) : List (Str × Option V) :=
  (options.mappedCells row).map fun (column, value) =>
    reading.cell column (texts.literal value (options.info column))

def restoredRow (row : List Value) : Row Str V :=
  rowOf (restoreTuple options texts reading row)

abbrev restoredRows : List (Row Str V) :=
  options.deletedRowValues.map (restoredRow options texts reading)

end

theorem restoreTuple_columns (reading : Reading V texts options.databaseType) (row : List Value) :
    (restoreTuple options texts reading row).map (·.1) = shownColumns options := by
  rw [restoreTuple, shownColumns, ← mappedCells_columns row, List.map_map, List.map_map]
  rfl

/-- Joined insertions insert the tuples of their groups. -/
theorem translate_joinedInserts (reading : Reading V texts options.databaseType)
    (groups : List (List Str × List (List Str))) :
    ∃ batches : List (List (List (Str × Option V))),
      (groups.flatMap fun (columns, tuples) =>
          (joinedBatches GridText.tuple (texts.insertHead columns) ", ".toList false [] tuples).map
            (GridStatement.insert columns)).map reading.translate = batches.map .insert ∧
        batches.flatten =
          groups.flatMap fun group => group.2.map (List.zipWith reading.cell group.1) := by
  induction groups with
  | nil => exact ⟨[], rfl, rfl⟩
  | cons group groups ih =>
    obtain ⟨batches, statements, tuples⟩ := ih
    refine ⟨(joinedBatches GridText.tuple (texts.insertHead group.1) ", ".toList false []
      group.2).map (fun batch => batch.map (List.zipWith reading.cell group.1)) ++ batches, ?_, ?_⟩
    · rw [List.flatMap_cons, List.map_append, List.map_append, statements, List.map_map,
        List.map_map]
      rfl
    · rw [flatten_append, ← map_flatten, joinedBatches_flatten, nil_append, tuples,
        List.flatMap_cons]

section DeletedRows

variable {rowOk : Row Str V → Bool} {table : List (Row Str V)}
  (explicit : Explicit options texts reading rowOk table)

include explicit

theorem restoreCells_eq (row : List Value) : options.restoreCells texts row =
    (options.mappedCells row).map fun (column, value) =>
      (column, texts.literal value (options.info column)) := by
  rw [restoreCells, filter_eq_self.mpr]
  intro cell member
  obtain ⟨index, atIndex, _⟩ := mem_mappedCells.mp member
  have written := (explicit.notFilled cell.1 (mem_of_getElem? atIndex)).1
  simp [written]

theorem zipWith_restoreCells (row : List Value) :
    List.zipWith reading.cell ((options.restoreCells texts row).map (·.1))
      ((options.restoreCells texts row).map (·.2)) = restoreTuple options texts reading row := by
  rw [restoreCells_eq explicit, List.map_map, List.map_map, List.zipWith_map, List.zipWith_self]
  rfl

/-- The undo of the deletions inserts the rows again, in their order. -/
theorem translate_undoDeletes : ∃ batches : List (List (List (Str × Option V))),
    (options.undoDeletes texts).map reading.translate = batches.map .insert ∧
      batches.flatten = options.deletedRowValues.map (restoreTuple options texts reading) := by
  have notHive : (options.databaseType == some .hive) = false := by
    simpa using explicit.rejects.2
  unfold undoDeletes
  simp only [notHive, Bool.false_eq_true, if_false]
  split
  · have sameColumns : ∀ pair ∈ options.deletedRowValues.map (fun row =>
        ((options.restoreCells texts row).map (·.1), (options.restoreCells texts row).map (·.2))),
        pair.1 = options.effectiveColumns.filterMap id := by
      intro pair member
      obtain ⟨row, _, rfl⟩ := mem_map.mp member
      rw [← mappedCells_columns row, restoreCells_eq explicit, List.map_map]
      rfl
    have tuples := @groupConsecutive_flatMap _ _ _ texts.columnList
      (fun columns literals => List.zipWith reading.cell columns literals)
      (fun columns => columns = options.effectiveColumns.filterMap id)
      (fun _ _ same same' _ => by rw [same, same']) _ sameColumns
    obtain ⟨batches, statements, flat⟩ := translate_joinedInserts reading _
    refine ⟨batches, statements, ?_⟩
    rw [flat, tuples, List.map_map]
    apply map_congr_left
    intro row _
    exact zipWith_restoreCells explicit row
  · refine ⟨options.deletedRowValues.map fun row => [restoreTuple options texts reading row], ?_, ?_⟩
    · simp only [List.map_map]
      apply map_congr_left
      intro row _
      simp [Reading.translate, zipWith_restoreCells explicit]
    · rw [← flatMap_def, ← map_eq_flatMap]

variable (columnsOnce : (shownColumns options).Nodup)

include columnsOnce

/-- What is restored of a deleted row: the cells that the result shows. -/
theorem restoredRow_eq {rowIndex : Nat} (touched : Touched options rowIndex row)
    {tableRow : Row Str V} (inTable : tableRow ∈ table)
    (key : (keySchema options rowOk).keyOf tableRow = shownKey options texts reading row)
    (column : Str) :
    restoredRow options texts reading row column =
      if column ∈ shownColumns options then tableRow column else none := by
  have columns := restoreTuple_columns reading row
  unfold restoredRow rowOf
  split
  · rename_i shown
    obtain ⟨name, nameMem, rfl⟩ := mem_map.mp shown
    obtain ⟨some_name, atSome, isName⟩ := mem_filterMap.mp nameMem
    obtain ⟨index, atIndex⟩ := mem_iff_getElem?.mp atSome
    rw [id_eq] at isName
    rw [isName] at atIndex
    have value := explicit.shows rowIndex row touched tableRow inTable key index name atIndex
    apply assign_of_mem (columns ▸ columnsOnce)
    refine mem_map.mpr ⟨_, mappedCell_mem atIndex row, ?_⟩
    simp only [Reading.cell, value]
  · rename_i hidden
    exact assign_of_notMem (columns ▸ hidden)

omit columnsOnce in
theorem key_shown {primaryKey : Str} (isKey : primaryKey ∈ options.tableMeta.primaryKeys) :
    resolve options.databaseType primaryKey ∈ shownColumns options := by
  obtain ⟨index, column, _, atIndex, same⟩ := explicit.keysShown primaryKey isKey
  rw [← same]
  exact mem_map_of_mem (mem_filterMap.mpr ⟨_, mem_of_getElem? atIndex, rfl⟩)

theorem restoredRow_key {rowIndex : Nat} (touched : Touched options rowIndex row)
    {tableRow : Row Str V} (inTable : tableRow ∈ table)
    (key : (keySchema options rowOk).keyOf tableRow = shownKey options texts reading row) :
    (keySchema options rowOk).keyOf (restoredRow options texts reading row) =
      (keySchema options rowOk).keyOf tableRow := by
  rw [keyOf_eq, keyOf_eq, map_inj_left]
  intro primaryKey isKey
  rw [restoredRow_eq explicit columnsOnce touched inTable key, if_pos (key_shown explicit isKey)]

end DeletedRows

/-! ## Dirty rows -/

theorem columnAt_eq {column : Str} : options.columnAt index = some column ↔
    options.effectiveColumns[index]? = some (some column) := by
  rw [columnAt, join_eq_some_iff]

theorem afterRow_of_notMem (untouched : ∀ change ∈ changes, change.1 ≠ index) (row : List Value) :
    (afterRow row changes).getD index .null =
      row.getD index .null := by
  unfold afterRow
  induction changes generalizing row with
  | nil => rfl
  | cons change changes ih =>
    rw [forall_mem_cons] at untouched
    rw [foldl_cons, ih untouched.2]
    simp [getElem?_set_ne untouched.1]

theorem afterRow_of_mem (member : (index, value) ∈ changes)
    (once : ∀ value', (index, value') ∈ changes → value' = value) (inRow : index < row.length) :
    (afterRow row changes).getD index .null = value := by
  unfold afterRow
  induction changes generalizing row with
  | nil => cases member
  | cons change changes ih =>
    rw [foldl_cons]
    by_cases again : (index, value) ∈ changes
    · exact ih again (fun v inside => once v (mem_cons_of_mem _ inside)) (by simpa using inRow)
    have first : (index, value) = change := by
      obtain isFirst | later := mem_cons.mp member
      · exact isFirst
      · exact absurd later again
    have untouched : ∀ change ∈ changes, change.1 ≠ index := by
      intro later laterMem same
      apply again
      have sameValue := once later.2 (mem_cons_of_mem _ (by rw [← same]; exact laterMem))
      rw [← sameValue, ← same]
      exact laterMem
    have kept := afterRow_of_notMem untouched (row.set change.1 change.2)
    unfold afterRow at kept
    rw [kept, ← first]
    simp [getD_eq_getElem?_getD, inRow]

section DirtyRows

variable {rowOk : Row Str V → Bool} {table : List (Row Str V)}
  (grid : KeyedGrid options texts reading rowOk table)
  (explicit : Explicit options texts reading rowOk table)
  (columnsOnce : (shownColumns options).Nodup)

include explicit

variable {column : Str}

theorem update_not_omitted (shown : some column ∈ options.effectiveColumns)
    (primaryKeySet : List Str) : isGridUpdateOmittedColumn options.databaseType
      (options.info column) column primaryKeySet = false := by
  have notClickhouse : (options.databaseType == some .clickHouse) = false := by
    simpa using explicit.rejects.1
  have written := (explicit.notFilled column shown).1
  simp only [isGridInsertOmittedColumn, Bool.or_eq_false_iff, Bool.not_false, Bool.true_and]
    at written
  simp [isGridUpdateOmittedColumn, isClickhouseKeyColumn, notClickhouse, written]

/-- The changes of the columns that the result shows are written. -/
theorem writableChanges_eq (primaryKeySet : List Str) (changes : Changes) :
    options.writableChanges primaryKeySet changes = changes.filterMap fun (index, value) =>
      (options.columnAt index).map fun column => (column, index, value) := by
  apply filterMap_congr
  intro change _
  cases changed : options.columnAt change.1 with
  | none => simp [changed]
  | some column =>
    have written := update_not_omitted explicit (mem_of_getElem? (columnAt_eq.mp changed))
      primaryKeySet
    simp [changed, written]

theorem mem_writableChanges {primaryKeySet : List Str} :
    (column, index, value) ∈ options.writableChanges primaryKeySet changes ↔
      (index, value) ∈ changes ∧ options.columnAt index = some column := by
  rw [writableChanges_eq explicit, mem_filterMap]
  constructor
  · intro found
    obtain ⟨change, member, made⟩ := found
    obtain ⟨name, atIndex, same⟩ := map_eq_some_iff.mp made
    cases same
    exact ⟨member, atIndex⟩
  · intro found
    refine ⟨(index, value), found.1, ?_⟩
    simp [found.2]

/-- The SET list that takes the changes of a row back. -/
def undoSets (options : DataGridSaveStatementOptions) (texts : GridText) (row : List Value)
    (changes : Changes) : List Assignment :=
  (options.writableChanges [] changes).map fun (column, index, _) =>
    ⟨column, texts.literal (row.getD index .null) (options.info column)⟩

/-- The conditions on the changed cells. -/
def undoConditions (options : DataGridSaveStatementOptions) (texts : GridText)
    (changes : Changes) : Conjunction :=
  (options.writableChanges [] changes).map fun (column, _, value) =>
    texts.buildSaveColumnPredicate options.databaseType column value (options.info column) true

theorem assignments_updateSets (changes : Changes) :
    reading.assignments (options.updateSets texts changes) =
      (options.writableChanges [] changes).map fun (column, _, value) =>
        (resolve options.databaseType column, savedValue options texts reading column value) := by
  unfold updateSets Reading.assignments
  rw [writableChanges_eq explicit, writableChanges_eq explicit, List.map_map]
  apply map_congr_left
  intro change _
  simp [Reading.cell, valueOf_formatGridSave]

theorem undoSets_columns (row : List Value) (changes : Changes) :
    (reading.assignments (undoSets options texts row changes)).map (·.1) =
      (reading.assignments (options.updateSets texts changes)).map (·.1) := by
  rw [assignments_updateSets explicit]
  simp only [undoSets, Reading.assignments, List.map_map]
  rfl

section

variable {rowIndex : Nat} {changes : Changes} {row : List Value} {tableRow : Row Str V}
  (dirtyMem : (rowIndex, changes) ∈ options.dirtyRows)
  (atIndex : options.rows[rowIndex]? = some row) (inTable : tableRow ∈ table)
  (key : (keySchema options rowOk).keyOf tableRow = shownKey options texts reading row)

include grid dirtyMem

omit explicit in
theorem updateSets_columns_nodup :
    ((reading.assignments (options.updateSets texts changes)).map (·.1)).Nodup :=
  (grid.changedOnce _ dirtyMem).sublist updateSets_columns_sublist

omit explicit in
theorem change_once (shown : options.columnAt index = some column) {value' : Value}
    (member : (index, value) ∈ changes) (member' : (index, value') ∈ changes) : value' = value := by
  have once := grid.changedOnce _ dirtyMem
  rw [List.Nodup, pairwise_map, pairwise_filterMap] at once
  by_contra differ
  have symm : Std.Symm fun (change change' : Nat × Value) => ∀ name,
      options.columnAt change.1 = some name → ∀ name', options.columnAt change'.1 = some name' →
      resolve options.databaseType name ≠ resolve options.databaseType name' :=
    ⟨fun _ _ apart name isFirst name' isSecond => Ne.symm (apart name' isSecond name isFirst)⟩
  exact once.forall member member' (by simpa using Ne.symm differ) column shown column shown rfl

include atIndex inTable key

/-- The undo puts the changed cells back. -/
theorem assign_undoSets : assign (reading.assignments (undoSets options texts row changes))
      (assign (reading.assignments (options.updateSets texts changes)) tableRow) = tableRow := by
  funext column
  have columns := undoSets_columns explicit row changes
  have nodup := updateSets_columns_nodup grid dirtyMem
  by_cases changed : column ∈ (reading.assignments (undoSets options texts row changes)).map (·.1)
  · obtain ⟨⟨name, value⟩, member, rfl⟩ := mem_map.mp changed
    rw [assign_of_mem (columns ▸ nodup) member]
    obtain ⟨assignment, assignmentMem, same⟩ := mem_map.mp member
    obtain ⟨⟨shown, index, new⟩, writable, rfl⟩ := mem_map.mp assignmentMem
    cases same
    have shownAt := (mem_writableChanges explicit).mp writable
    exact explicit.shows rowIndex row ⟨atIndex, .inl (mem_map_of_mem dirtyMem)⟩
      tableRow inTable key index shown (columnAt_eq.mp shownAt.2)
  · rw [assign_of_notMem changed, assign_of_notMem (columns ▸ changed)]

omit atIndex inTable key in
/-- The changed cells of the updated row meet their conditions. -/
theorem undoConditions_hold : (undoConditions options texts changes).all (reading.holds
      (assign (reading.assignments (options.updateSets texts changes)) tableRow)) = true := by
  rw [undoConditions, List.all_map, List.all_eq_true]
  intro change writable
  obtain ⟨column, index, value⟩ := change
  obtain ⟨changed, shown⟩ := (mem_writableChanges explicit).mp writable
  refine (holds_savePredicate explicit).mpr ⟨?_, ?_⟩
  · apply assign_of_mem (updateSets_columns_nodup grid dirtyMem)
    rw [assignments_updateSets explicit]
    exact mem_map_of_mem writable
  · contrapose!
    intro notNull
    rw [savedValue, if_neg notNull.2]
    exact explicit.changedValues _ dirtyMem _ changed notNull.1 column shown

include columnsOnce

/-- The key cells of the updated row, read from the changed row of the grid. -/
theorem afterRow_keyCell (validated : options.validateDataGridSave = none)
    (newKeyNotNull : none ∉ (keySchema options rowOk).keyOf
      (assign (reading.assignments (options.updateSets texts changes)) tableRow))
    {primaryKey : Str} (isKey : primaryKey ∈ options.tableMeta.primaryKeys) :
    options.valueOf (afterRow row changes) primaryKey ≠ .null ∧
      reading.valueOf (resolve options.databaseType primaryKey)
          (keyLiteral options texts (afterRow row changes)
            primaryKey) =
        assign (reading.assignments (options.updateSets texts changes)) tableRow
          (resolve options.databaseType primaryKey) := by
  have touched : Touched options rowIndex row :=
    ⟨atIndex, .inl (mem_map_of_mem dirtyMem)⟩
  obtain ⟨index, column, found, shownAt, same⟩ := explicit.keysShown primaryKey isKey
  have oldNotNull := keyValue_ne_null validated touched isKey
  simp only [valueOf, keyLiteral, found] at oldNotNull ⊢
  have inRow : index < row.length := by
    by_contra outside
    apply oldNotNull
    rw [getD_eq_getElem?_getD, getElem?_eq_none (by omega), getD_none]
  rw [explicit.cast, ← info_congr same]
  have newNotNull : assign (reading.assignments (options.updateSets texts changes)) tableRow
      (resolve options.databaseType primaryKey) ≠ none := by
    intro isNull
    apply newKeyNotNull
    rw [keyOf_eq]
    exact mem_map.mpr ⟨primaryKey, isKey, isNull⟩
  by_cases changed : ∃ value, (index, value) ∈ changes
  · obtain ⟨value, member⟩ := changed
    have once := fun value' (member' : (index, value') ∈ changes) =>
      change_once grid dirtyMem (columnAt_eq.mpr shownAt) member member'
    have newValue : assign (reading.assignments (options.updateSets texts changes)) tableRow
        (resolve options.databaseType primaryKey) =
          savedValue options texts reading column value := by
      apply assign_of_mem (updateSets_columns_nodup grid dirtyMem)
      rw [assignments_updateSets explicit, ← same]
      exact mem_map.mpr ⟨(column, index, value),
        (mem_writableChanges explicit).mpr ⟨member, columnAt_eq.mpr shownAt⟩, rfl⟩
    rw [newValue] at newNotNull ⊢
    obtain ⟨_, notNull, value_eq⟩ := savedValue_eq newNotNull
    rw [afterRow_of_mem member once inRow, value_eq, same]
    exact ⟨notNull, rfl⟩
  · have untouched : ∀ change ∈ changes, change.1 ≠ index := by
      intro change member isIndex
      exact changed ⟨change.2, by rw [← isIndex]; exact member⟩
    have unchanged : assign (reading.assignments (options.updateSets texts changes)) tableRow
        (resolve options.databaseType primaryKey) =
          tableRow (resolve options.databaseType primaryKey) := by
      apply assign_of_notMem
      rw [assignments_updateSets explicit, List.map_map]
      intro listed
      obtain ⟨⟨name, index', value⟩, writable, sameColumn⟩ := mem_map.mp listed
      obtain ⟨member, shown⟩ := (mem_writableChanges explicit).mp writable
      have sameIndex := index_unique columnsOnce (columnAt_eq.mp shown) shownAt
        (sameColumn.trans same.symm)
      exact untouched _ member sameIndex
    rw [afterRow_of_notMem untouched, unchanged, ← same]
    exact ⟨oldNotNull, explicit.shows rowIndex row touched tableRow inTable key index column shownAt⟩

end

omit explicit in
variable (options texts reading) in
/-- The update of a dirty row and its undo. -/
def undoOf (dirty : Nat × Changes) : Option (Edit Str V × Edit Str V) :=
  (options.rows[dirty.1]?).bind fun row =>
    (editOf options texts reading dirty).map fun edit =>
      (edit,
        { key := shownKey options texts reading
            (afterRow row dirty.2)
          sets := reading.assignments (undoSets options texts row dirty.2)
          also := fun tableRow => (undoConditions options texts dirty.2).all
            (reading.holds tableRow) })

omit explicit in
variable (options texts reading) in
abbrev undos : List (Edit Str V × Edit Str V) :=
  options.dirtyRows.filterMap (undoOf options texts reading)

omit explicit in
theorem undoOf_fst : (undos options texts reading).map (·.1) = edits options texts reading := by
  rw [List.map_filterMap]
  apply filterMap_congr
  intro dirty _
  unfold undoOf
  cases atIndex : options.rows[dirty.1]? with
  | none => simp [editOf, atIndex]
  | some row => simp [comp_def]

include grid columnsOnce

section

variable (validated : options.validateDataGridSave = none)
  (updated : (keySchema options rowOk).Valid (table.map (editRow (keySchema options rowOk) (edits options texts reading))))
include validated updated

/-- What a pair of a dirty row is. -/
theorem undoOf_spec {dirty : Nat × Changes} (dirtyMem : dirty ∈ options.dirtyRows)
    {pair : Edit Str V × Edit Str V}
    (made : undoOf options texts reading dirty = some pair) :
    Undoes (keySchema options rowOk) table pair ∧
      (((options.rows[dirty.1]?).bind fun row => options.undoUpdate texts row dirty.2).map
        reading.translate = some (pair.2.statement (keySchema options rowOk))) := by
  obtain ⟨rowIndex, changes⟩ := dirty
  obtain ⟨row, atIndex, made⟩ := bind_eq_some_iff.mp made
  obtain ⟨edit, isEdit, rfl⟩ := map_eq_some_iff.mp made
  have inEdits : edit ∈ edits options texts reading :=
    mem_filterMap.mpr ⟨_, dirtyMem, isEdit⟩
  obtain ⟨row', atIndex', nonempty, rfl⟩ := editOf_eq_some.mp isEdit
  have sameRow : row' = row := Option.some.inj (atIndex'.symm.trans atIndex)
  subst sameRow
  obtain ⟨tableRow, inTable, key, _⟩ := grid.shown rowIndex row'
    ⟨atIndex, .inl (mem_map_of_mem dirtyMem)⟩
  have edited : editRow (keySchema options rowOk)
      (edits options texts reading) tableRow =
        assign (reading.assignments (options.updateSets texts changes)) tableRow :=
    editRow_of_mem (editOf_keys_nodup grid.keysApart) inEdits key.symm
  have newKeyNotNull : none ∉ (keySchema options rowOk).keyOf
      (assign (reading.assignments (options.updateSets texts changes)) tableRow) := by
    apply explicit.keyNotNull
    have ok := updated.2 _ (mem_map_of_mem inTable)
    rwa [edited] at ok
  have keyCells := fun primaryKey (isKey : primaryKey ∈ options.tableMeta.primaryKeys) =>
    afterRow_keyCell grid explicit columnsOnce dirtyMem atIndex inTable key validated newKeyNotNull
      isKey
  have newKey : shownKey options texts reading
      (afterRow row' changes) = (keySchema options rowOk).keyOf
        (assign (reading.assignments (options.updateSets texts changes)) tableRow) := by
    rw [keyOf_eq, shownKey, map_inj_left]
    exact fun primaryKey isKey => (keyCells primaryKey isKey).2
  constructor
  · exact ⟨tableRow, inTable, key, newKey,
      assign_undoSets grid explicit dirtyMem atIndex inTable key,
      undoConditions_hold grid explicit dirtyMem⟩
  · have writable : (options.writableChanges [] changes).isEmpty = false := by
      have same : (options.updateSets texts changes).isEmpty =
          (options.writableChanges [] changes).isEmpty := by
        rw [updateSets, isEmpty_map, writableChanges_eq explicit,
          writableChanges_eq explicit]
      rw [← same]
      exact nonempty
    have selects : ∀ r, (options.buildPrimaryKeyWhere texts
        (afterRow row' changes)).all (reading.holds r) =
          ((keySchema options rowOk).keyOf r == shownKey options texts reading
            (afterRow row' changes)) :=
      selects_keyWhere grid.keyed (fun primaryKey isKey => (keyCells primaryKey isKey).1)
        (newKey ▸ newKeyNotNull)
    simp only [atIndex, bind_some, undoUpdate, writable,
      Bool.false_eq_true, if_false, map_some, Reading.translate, Edit.statement,
      Option.some.injEq]
    congr 1
    funext r
    simp only [Reading.selects, any_cons, any_nil, Bool.or_false, all_append,
      selects]
    rfl

/-- The undo of the updates, one for each update. -/
theorem translate_undoUpdates : (options.undoUpdates texts).map reading.translate =
      ((undos options texts reading).map (·.2)).map
        (Edit.statement (keySchema options rowOk)) := by
  unfold undoUpdates
  rw [List.map_filterMap, List.map_filterMap, List.map_filterMap]
  apply filterMap_congr
  intro dirty dirtyMem
  cases made : undoOf options texts reading dirty with
  | some pair =>
    exact (undoOf_spec grid explicit columnsOnce validated updated dirtyMem made).2
  | none =>
    -- Nothing is written, so nothing is taken back.
    unfold undoOf at made
    cases atIndex : options.rows[dirty.1]? with
    | none => simp [atIndex]
    | some row =>
      have empty : (options.writableChanges [] dirty.2).isEmpty = true := by
        unfold editOf at made
        rw [atIndex, bind_some] at made
        split at made
        · rename_i empty
          rwa [updateSets, isEmpty_map,
            writableChanges_eq explicit, ← writableChanges_eq explicit []] at empty
        · cases made
      simp [atIndex, undoUpdate, empty]

end

end DirtyRows

/-! ## The whole rollback -/

section Conditions

variable (options texts reading) (rowOk : Row Str V → Bool) (table : List (Row Str V))

/-- No dirty row takes over the old key of another dirty row. -/
def KeysFree : Prop :=
  ∀ row ∈ table, ∀ other ∈ table, changesOf options texts reading rowOk row ≠ none →
    changesOf options texts reading rowOk other ≠ none → row ≠ other →
    (keySchema options rowOk).keyOf (editedRow options texts reading rowOk row) ≠
      (keySchema options rowOk).keyOf other

/-- The deleted rows have no value that the result does not show. -/
def NothingHidden : Prop :=
  ∀ row ∈ table, isDeleted options texts reading rowOk row = true →
    ∀ column, column ∉ shownColumns options → row column = none

/-- The rows that were not deleted. -/
abbrev keptRows : List (Row Str V) :=
  table.filter fun tableRow => !isDeleted options texts reading rowOk tableRow

/-- The table after the deleted rows were inserted again. -/
abbrev reinserted : List (Row Str V) :=
  (keptRows options texts reading rowOk table).map (editedRow options texts reading rowOk) ++
    restoredRows options texts reading

end Conditions

section Rollback

variable {rowOk : Row Str V → Bool} {table : List (Row Str V)}
  (grid : KeyedGrid options texts reading rowOk table)
  (explicit : Explicit options texts reading rowOk table)
  (columnsOnce : (shownColumns options).Nodup)

variable {tableRow : Row Str V} {restored : List (Row Str V)}

theorem changesOf_ne_none (edited : (keySchema options rowOk).keyOf tableRow ∈
      (edits options texts reading).map (·.key)) :
    changesOf options texts reading rowOk tableRow ≠ none := by
  obtain ⟨dirty, dirtyMem, row, atIndex, same⟩ := mem_editOf_keys edited
  intro notDirty
  unfold changesOf at notDirty
  rw [findSome?_eq_none_iff] at notDirty
  have found := notDirty dirty dirtyMem
  simp [atIndex, same] at found

include grid in
/-- Only the rows that an update writes matter. -/
theorem keysFree_iff (updated : (keySchema options rowOk).Valid
      (table.map (editedRow options texts reading rowOk))) :
    KeysFree options texts reading rowOk table ↔ ∀ row ∈ table, ∀ other ∈ table,
      (keySchema options rowOk).keyOf row ∈
        (edits options texts reading).map (·.key) →
      (keySchema options rowOk).keyOf other ∈
        (edits options texts reading).map (·.key) → row ≠ other →
      (keySchema options rowOk).keyOf (editedRow options texts reading rowOk row) ≠
        (keySchema options rowOk).keyOf other := by
  constructor
  · intro free row rowMem other otherMem rowEdited otherEdited
    exact free row rowMem other otherMem (changesOf_ne_none rowEdited)
      (changesOf_ne_none otherEdited)
  · intro free row rowMem other otherMem _ _ differ same
    have unedited : ∀ tableRow, (keySchema options rowOk).keyOf tableRow ∉
        (edits options texts reading).map (·.key) →
        editedRow options texts reading rowOk tableRow = tableRow := by
      intro tableRow notEdited
      rw [grid.editedRow_eq]
      exact editRow_of_notMem notEdited
    by_cases rowEdited : (keySchema options rowOk).keyOf row ∈
        (edits options texts reading).map (·.key)
    · by_cases otherEdited : (keySchema options rowOk).keyOf other ∈
          (edits options texts reading).map (·.key)
      · exact free row rowMem other otherMem rowEdited otherEdited differ same
      · apply differ
        apply updated.eq_of_edited rowMem otherMem
        rw [same, unedited other otherEdited]
    · rw [unedited row rowEdited] at same
      exact differ (eq_of_keyOf grid.valid.1 rowMem otherMem same)

include grid in
/-- Each deleted row of the grid shows a deleted row of the table. -/
theorem exists_deleted (member : row ∈ options.deletedRowValues) :
    ∃ rowIndex, Touched options rowIndex row ∧ rowIndex ∈ options.deletedRows ∧
      ∃ tableRow ∈ table, (keySchema options rowOk).keyOf tableRow =
        shownKey options texts reading row ∧
        isDeleted options texts reading rowOk tableRow = true := by
  obtain ⟨rowIndex, deleted, atIndex⟩ := mem_filterMap.mp member
  have touched : Touched options rowIndex row := ⟨atIndex, .inr deleted⟩
  obtain ⟨tableRow, inTable, key, _⟩ := grid.shown rowIndex row touched
  refine ⟨rowIndex, touched, deleted, tableRow, inTable, key, ?_⟩
  rw [isDeleted, List.any_eq_true]
  exact ⟨rowIndex, deleted, by simp [atIndex, key]⟩

theorem exists_deletedRow (deleted : isDeleted options texts reading rowOk tableRow = true) :
    ∃ row ∈ options.deletedRowValues,
      (keySchema options rowOk).keyOf tableRow = shownKey options texts reading row := by
  rw [isDeleted, List.any_eq_true] at deleted
  obtain ⟨rowIndex, inDeleted, shown⟩ := deleted
  rw [Option.any_eq_true] at shown
  obtain ⟨row, atIndex, same⟩ := shown
  rw [beq_iff_eq] at same
  exact ⟨row, mem_filterMap.mpr ⟨rowIndex, inDeleted, atIndex⟩, same.symm⟩

include grid explicit in
theorem deletedRows_keys_nodup :
    (options.deletedRowValues.map (shownKey options texts reading)).Nodup := by
  rw [List.Nodup, pairwise_map, deletedRowValues,
    pairwise_filterMap]
  apply List.Pairwise.imp_of_mem _ explicit.deletedOnce
  intro rowIndex rowIndex' deleted deleted' differ row atIndex row' atIndex' same
  exact differ (grid.apart rowIndex rowIndex' row row' ⟨atIndex, .inr deleted⟩
    ⟨atIndex', .inr deleted'⟩ same)

include grid explicit columnsOnce

/-- The restored rows are the deleted rows exactly if nothing of them is hidden. -/
theorem restored_iff : NothingHidden options texts reading rowOk table ↔
    ∀ row ∈ options.deletedRowValues, ∀ tableRow ∈ table,
      (keySchema options rowOk).keyOf tableRow = shownKey options texts reading row →
      restoredRow options texts reading row = tableRow := by
  constructor
  · intro nothingHidden row member tableRow inTable key
    obtain ⟨rowIndex, touched, deleted, _⟩ := exists_deleted grid member
    have isDeleted : isDeleted options texts reading rowOk tableRow = true := by
      rw [GridSave.isDeleted, List.any_eq_true]
      exact ⟨rowIndex, deleted, by simp [touched.1, key]⟩
    funext column
    rw [restoredRow_eq explicit columnsOnce touched inTable key]
    split
    · rfl
    · rename_i hidden
      exact (nothingHidden tableRow inTable isDeleted column hidden).symm
  · intro restored tableRow inTable deleted column hidden
    obtain ⟨row, member, key⟩ := exists_deletedRow deleted
    obtain ⟨rowIndex, touched, _⟩ := exists_deleted grid member
    rw [← restored row member tableRow inTable key,
      restoredRow_eq explicit columnsOnce touched inTable key, if_neg hidden]

/-- The table with its deleted rows at the end. -/
theorem restored_perm (nothingHidden : NothingHidden options texts reading rowOk table) :
    ((keptRows options texts reading rowOk table) ++
      restoredRows options texts reading).Perm table := by
  have restored := (restored_iff grid explicit columnsOnce).mp nothingHidden
  have tableNodup : table.Nodup := List.Nodup.of_map _ grid.valid.1
  have perm : (restoredRows options texts reading).Perm
      (table.filter (isDeleted options texts reading rowOk)) := by
    rw [perm_ext_iff_of_nodup _ (tableNodup.filter _)]
    · intro tableRow
      rw [List.mem_map, List.mem_filter]
      constructor
      · intro found
        obtain ⟨row, member, rfl⟩ := found
        obtain ⟨_, _, _, tableRow, inTable, key, deleted⟩ := exists_deleted grid member
        rw [restored row member tableRow inTable key]
        exact ⟨inTable, deleted⟩
      · intro found
        obtain ⟨row, member, key⟩ := exists_deletedRow found.2
        exact ⟨row, member, restored row member tableRow found.1 key⟩
    · apply List.Nodup.of_map (keySchema options rowOk).keyOf
      have keys : (restoredRows options texts reading).map
          (keySchema options rowOk).keyOf =
            options.deletedRowValues.map (shownKey options texts reading) := by
        rw [List.map_map]
        apply map_congr_left
        intro row member
        obtain ⟨_, touched, _, tableRow, inTable, key, _⟩ := exists_deleted grid member
        rw [comp_apply, restoredRow_key explicit columnsOnce touched inTable key, key]
      rw [keys]
      exact deletedRows_keys_nodup grid explicit
  have split := filter_append_perm (fun tableRow =>
    !isDeleted options texts reading rowOk tableRow) table
  simp only [Bool.not_not] at split
  exact (perm.append_left _).trans split

variable (validated : options.validateDataGridSave = none)
  (forward : ∀ n, (keySchema options rowOk).Valid (table.map (editRow
    (keySchema options rowOk)
    ((edits options texts reading).take n))))
  (validSaved : (keySchema options rowOk).Valid (savedTable options texts reading rowOk table))

include validated forward validSaved

/-- The rollback comes down to the updates that take the changes back, on the table with the
deleted rows inserted again. -/
theorem run_rollback_iff : (keySchema options rowOk).run
        ((options.buildDataGridRollbackStatements texts).map reading.translate)
        (savedTable options texts reading rowOk table) = some restored ↔
      (keySchema options rowOk).Valid
        (reinserted options texts reading rowOk table) ∧
      (keySchema options rowOk).run
        (((undos options texts reading).map (·.2)).map
          (Edit.statement (keySchema options rowOk)))
        (reinserted options texts reading rowOk table) = some restored := by
  have notClickhouse : (options.databaseType == some .clickHouse) = false := by
    simpa using explicit.rejects.1
  have added : options.newRows.filter (isAdded options) = options.newRows := by
    rw [filter_eq_self]
    exact fun row isNew => isAdded_new explicit grid.keyed isNew
  have updated := valid_whole forward
  obtain ⟨batches, statements, tuples⟩ := translate_undoDeletes explicit
  rw [savedTable, added] at validSaved ⊢
  have validKept := validSaved.sublist (sublist_append_left _ _)
  rw [buildDataGridRollbackStatements, notClickhouse,
    if_neg Bool.false_ne_true, List.map_append, List.map_append, run_append,
    run_append, run_undoInserts explicit grid.keyed columnsOnce validSaved, bind_some,
    statements, translate_undoUpdates grid explicit columnsOnce validated updated,
    bind_eq_some_iff]
  have columns : ∀ tuple ∈ batches.flatten, (tuple.map (·.1)).Nodup := by
    intro tuple member
    rw [tuples] at member
    obtain ⟨row, _, rfl⟩ := mem_map.mp member
    rw [restoreTuple_columns]
    exact columnsOnce
  have rows : batches.flatten.map rowOf =
      restoredRows options texts reading := by
    rw [tuples, List.map_map]
    rfl
  simp only [run_inserts_iff validKept, rows]
  constructor
  · intro ok
    obtain ⟨_, ⟨_, valid, rfl⟩, undone⟩ := ok
    exact ⟨valid, undone⟩
  · intro ok
    exact ⟨_, ⟨columns, ok.1, rfl⟩, ok.2⟩

omit validSaved in
theorem undoOf_undoes {rows : List (Row Str V)} (perm : rows.Perm table) :
    ∀ pair ∈ undos options texts reading,
      Undoes (keySchema options rowOk) rows pair := by
  intro pair member
  obtain ⟨dirty, dirtyMem, made⟩ := mem_filterMap.mp member
  have updated := valid_whole forward
  obtain ⟨tableRow, inTable, undone⟩ :=
    (undoOf_spec grid explicit columnsOnce validated updated dirtyMem made).1
  exact ⟨tableRow, perm.mem_iff.mpr inTable, undone⟩

omit validSaved in
/-- On the table with all its rows, the updates are taken back exactly if the keys are free. -/
theorem run_undoUpdates_iff {rows : List (Row Str V)} (perm : rows.Perm table) :
    (keySchema options rowOk).run
        (((undos options texts reading).map (·.2)).map
          (Edit.statement (keySchema options rowOk)))
        (rows.map (editedRow options texts reading rowOk)) = some restored ↔
      KeysFree options texts reading rowOk table ∧ restored = rows := by
  have whole := valid_whole forward
  have keys : (((undos options texts reading).map (·.1)).map
      (·.key)).Nodup := by
    rw [undoOf_fst]
    exact editOf_keys_nodup grid.keysApart
  have validRows := grid.valid.perm perm.symm
  have wholeRows : (keySchema options rowOk).Valid (rows.map (editRow
      (keySchema options rowOk) ((undos options texts reading).map (·.1)))) := by
    rw [undoOf_fst]
    exact whole.perm (perm.symm.map _)
  have forwardRows : ∀ n, (keySchema options rowOk).Valid (rows.map (editRow
      (keySchema options rowOk) (((undos options texts reading).map (·.1)).take n))) := by
    intro n
    rw [undoOf_fst]
    exact (forward n).perm (perm.symm.map _)
  have undoes := undoOf_undoes grid explicit columnsOnce validated forward perm
  have undone := @run_undo_iff _ _ _ _ _ _ restored _ keys undoes wholeRows validRows
    forwardRows
  rw [undoOf_fst, ← grid.editedRow_eq] at undone
  rw [undone, keysFree_iff grid (grid.editedRow_eq ▸ whole)]
  simp only [perm.mem_iff]

omit explicit columnsOnce validated forward validSaved in
/-- A dirty row is not deleted. -/
theorem not_deleted (edited : (keySchema options rowOk).keyOf tableRow ∈
      (edits options texts reading).map (·.key)) :
    isDeleted options texts reading rowOk tableRow = false := by
  rw [← Bool.not_eq_true]
  intro deleted
  obtain ⟨dirty, dirtyMem, row, atIndex, same⟩ := mem_editOf_keys edited
  obtain ⟨row', member, key⟩ := exists_deletedRow deleted
  obtain ⟨rowIndex, touched, inDeleted, _⟩ := exists_deleted grid member
  have inDirty : dirty.1 ∈ options.dirtyRows.map (·.1) := mem_map_of_mem dirtyMem
  have sameIndex := grid.apart dirty.1 rowIndex row row' ⟨atIndex, .inl inDirty⟩ touched
    (same.trans key)
  exact grid.disjoint dirty.1 inDirty (sameIndex ▸ inDeleted)

omit validSaved in
/-- A rollback that gives the table back has inserted the deleted rows as they were. -/
theorem nothingHidden_of_restored (valid : (keySchema options rowOk).Valid
      (reinserted options texts reading rowOk table)) (undone : (keySchema options rowOk).run
      (((undos options texts reading).map (·.2)).map
        (Edit.statement (keySchema options rowOk)))
      (reinserted options texts reading rowOk table) = some restored) (perm : restored.Perm table) :
    NothingHidden options texts reading rowOk table := by
  have whole := valid_whole forward
  rw [← undoOf_fst] at whole
  have keys : (((undos options texts reading).map (·.1)).map
      (·.key)).Nodup := by
    rw [undoOf_fst]
    exact editOf_keys_nodup grid.keysApart
  have undoes := undoOf_undoes grid explicit columnsOnce validated forward (List.Perm.refl table)
  -- The updated rows are among the rows that were not deleted.
  have inKept : ∀ pair ∈ undos options texts reading,
      ∃ row ∈ (keptRows options texts reading rowOk table).map
        (editedRow options texts reading rowOk),
        (keySchema options rowOk).keyOf row = pair.2.key ∧ pair.2.also row = true := by
    intro pair member
    obtain ⟨row, inTable, key, moved, _, also⟩ := exists_undone keys undoes member
    rw [undoOf_fst, ← grid.editedRow_eq] at moved also
    have edited : (keySchema options rowOk).keyOf row ∈
        (edits options texts reading).map (·.key) := by
      rw [key, ← undoOf_fst]
      exact mem_map_of_mem (mem_map_of_mem member)
    refine ⟨_, mem_map_of_mem (mem_filter.mpr ⟨inTable, ?_⟩), moved.symm, also⟩
    rw [not_deleted grid edited]
    rfl
  have present : ∀ edit ∈ (undos options texts reading).map (·.2),
      edit.Present (keySchema options rowOk)
        (reinserted options texts reading rowOk table) := by
    intro edit member
    obtain ⟨pair, pairMem, rfl⟩ := mem_map.mp member
    obtain ⟨row, rowMem, found⟩ := inKept pair pairMem
    exact ⟨row, mem_append_left _ rowMem, found⟩
  rw [run_edits_iff valid (undo_keys_nodup keys undoes whole) present] at undone
  rw [restored_iff grid explicit columnsOnce]
  intro row rowMem tableRow inTable key
  obtain ⟨rowIndex, touched, _⟩ := exists_deleted grid rowMem
  have notUpdated : (keySchema options rowOk).keyOf (restoredRow options texts reading row) ∉
      ((undos options texts reading).map (·.2)).map (·.key) := by
    intro updated
    obtain ⟨edit, editMem, sameKey⟩ := mem_map.mp updated
    obtain ⟨pair, pairMem, rfl⟩ := mem_map.mp editMem
    obtain ⟨kept, keptMem, keptKey, _⟩ := inKept pair pairMem
    have apart := valid.1
    rw [List.map_append, nodup_append] at apart
    exact apart.2.2 _ (mem_map_of_mem keptMem) _
      (mem_map_of_mem (mem_map_of_mem rowMem)) (keptKey.trans sameKey)
  have inRestored : restoredRow options texts reading row ∈ restored := by
    rw [undone.2, List.mem_map]
    exact ⟨_, mem_append_right _ (mem_map_of_mem rowMem),
      editRow_of_notMem notUpdated⟩
  exact eq_of_keyOf grid.valid.1 (perm.mem_iff.mp inRestored) inTable
    (restoredRow_key explicit columnsOnce touched inTable key)

/-- After a save, the rollback succeeds and restores the table (with the deleted rows at its
end) exactly if no dirty row took over the key of another one and nothing of a deleted row is
hidden. -/
theorem restores_iff : (∃ restored, (keySchema options rowOk).run
      ((options.buildDataGridRollbackStatements texts).map reading.translate)
      (savedTable options texts reading rowOk table) = some restored ∧ restored.Perm table) ↔
    KeysFree options texts reading rowOk table ∧
      NothingHidden options texts reading rowOk table := by
  have whole := valid_whole forward
  rw [← grid.editedRow_eq] at whole
  have edited : NothingHidden options texts reading rowOk table →
      reinserted options texts reading rowOk table =
      ((keptRows options texts reading rowOk table) ++
        restoredRows options texts reading).map
          (editedRow options texts reading rowOk) := by
    intro nothingHidden
    rw [reinserted, List.map_append]
    congr 1
    conv_lhs => rw [← map_id (restoredRows options texts reading)]
    apply map_congr_left
    intro restored member
    obtain ⟨row, rowMem, rfl⟩ := mem_map.mp member
    obtain ⟨rowIndex, touched, deleted, tableRow, inTable, key, _⟩ := exists_deleted grid rowMem
    rw [(restored_iff grid explicit columnsOnce).mp nothingHidden row rowMem tableRow inTable key,
      editedRow_of_deleted grid deleted touched.1 key, id_eq]
  simp only [run_rollback_iff grid explicit columnsOnce validated forward validSaved]
  constructor
  · intro restores
    obtain ⟨restored, ⟨valid, undone⟩, perm⟩ := restores
    have nothingHidden := nothingHidden_of_restored grid explicit columnsOnce validated forward
      valid undone perm
    rw [edited nothingHidden, run_undoUpdates_iff grid explicit columnsOnce validated forward
      (restored_perm grid explicit columnsOnce nothingHidden)] at undone
    exact ⟨undone.1, nothingHidden⟩
  · intro conditions
    obtain ⟨keysFree, nothingHidden⟩ := conditions
    have perm := restored_perm grid explicit columnsOnce nothingHidden
    refine ⟨_, ⟨?_, ?_⟩, perm⟩
    · rw [edited nothingHidden]
      exact whole.perm (perm.symm.map _)
    · rw [edited nothingHidden,
        run_undoUpdates_iff grid explicit columnsOnce validated forward perm]
      exact ⟨keysFree, rfl⟩

end Rollback

/-- The columns of a given grid can be checked one by one. -/
theorem forall_columns {p : Nat → Str → Prop} :
    (∀ index column, options.effectiveColumns[index]? = some (some column) → p index column) ↔
      ∀ pair ∈ options.effectiveColumns.zipIdx, ∀ column ∈ pair.1.toList, p pair.2 column := by
  simp only [Prod.forall, mem_zipIdx_iff_getElem?, mem_toList]
  exact ⟨fun all _ index atIndex column shown => all index column (shown ▸ atIndex),
    fun all index column atIndex => all _ index atIndex column rfl⟩

end

/-! ## Examples of rollbacks -/

/-- The constraint of the key column. -/
def hasId (row : Row Str Str) : Bool := (row "id".toList).isSome

/-- The statements of a grid, run on a table. -/
def runOn (options : DataGridSaveStatementOptions) (statements : List GridStatement)
    (table : List (Row Str Str)) : Option (List (Row Str Str)) :=
  (keySchema options hasId).run (statements.map (plainReading options.databaseType).translate) table

theorem hasId_keyNotNull {row : Row Str Str} (ok : hasId row = true) : none ∉ [row "id".toList] := by
  intro isNull
  rw [mem_singleton] at isNull
  rw [hasId, ← isNull] at ok
  cases ok

/-- The second row takes over the key of the first. -/
def takeoverGrid : DataGridSaveStatementOptions :=
  namesGrid .postgres [[text "1", text "a"], [text "2", text "b"]]
    [(0, [(0, text "3")]), (1, [(0, text "1")])] [] []

def takeoverTable : List (Row Str Str) := [nameRow "'1'" "'a'", nameRow "'2'" "'b'"]

theorem grids_explicit : Explicit mixedGrid plainTexts (plainReading _) hasId mixedTable ∧
    Explicit takeoverGrid plainTexts (plainReading _) hasId takeoverTable := by
  constructor <;> exact
    { rejects := by decide
      keysShown := by
        intro primaryKey isKey
        cases mem_singleton.mp isKey
        exact ⟨0, "id".toList, by decide⟩
      notFilled := by
        intro column shown
        have isShown : some column ∈ [some "id".toList, some "name".toList] := shown
        simp only [mem_cons, Option.some.injEq, not_mem_nil, or_false] at isShown
        obtain rfl | rfl := isShown <;> decide
      keyNotNull := fun row ok => hasId_keyNotNull ok
      deletedOnce := by decide
      newValues := by decide
      changedValues := by simp only [← mem_toList]; decide
      shows := by simp only [forall_columns, forall_touched]; decide
      cast := fun _ _ => rfl }

theorem grids_keyed : KeyedGrid mixedGrid plainTexts (plainReading _) hasId mixedTable ∧
    KeyedGrid takeoverGrid plainTexts (plainReading _) hasId takeoverTable := by
  constructor
  all_goals
    constructor
    case shown => exact forall_touched.mpr (by decide)
    case apart => simp only [forall_touched_pairs, forall_touched]; decide
    all_goals decide

end Dbx.Guarantees.GridRollback
