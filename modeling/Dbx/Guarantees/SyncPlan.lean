import Mathlib.Data.List.Nodup
import Dbx.Source.DataCompare

/-!
# What a data-compare plan deletes and inserts

A plan deletes the keys that were compared on the target side only and inserts those
compared on the source side only (`plan_deletes`, `plan_inserts`). With all rows compared,
or none, it therefore deletes no key of the source table and inserts no key of the target
table. With two samples this is so exactly when every sampled key that the other table has
is in the other sample as well (`SamplesAgree`); the two samples are drawn independently.

A `WHERE` equation with a null value holds of no row. A key is counted as inserted when the
statement writes all key columns.
-/
namespace Dbx.Guarantees.SyncPlan

open Dbx.Lib.Text Dbx.Source Dbx.Source.DataCompare List Function

/-! ## The effect of a statement -/

/-- The row satisfies the equations of a `WHERE` clause. -/
def Holds (key : KeyCondition) (row : TableRow) : Prop :=
  ∀ entry ∈ key, entry.2 ≠ .null ∧ row entry.1 = entry.2

/-- The statement deletes the row if it is in the table. -/
def Deletes (statement : SyncStatement) (row : TableRow) : Prop :=
  match statement with
  | .delete keys => ∃ key ∈ keys, Holds key row
  | _ => False

/-- The key that an inserted row gets, if all key columns are written. -/
def insertedKey (keyColumns columns : List Str) (values : List Value) : Option (List Value) :=
  keyColumns.mapM fun column => (columns.zip values).lookup column

def Inserts (keyColumns : List Str) (statement : SyncStatement) (key : List Value) : Prop :=
  match statement with
  | .insert columns rows => ∃ values ∈ rows, insertedKey keyColumns columns values = some key
  | _ => False

/-! ## Lists of pairs -/

variable {column : Str} {row : TableRow} {key : List Value} {statement : SyncStatement}

variable {f : Str → Value} {columns : List Str} {diff : CompareResult}

theorem lookup_map : (columns.map fun c => (c, f c)).lookup column =
    if column ∈ columns then some (f column) else none := by
  induction columns with
  | nil => rfl
  | cons c rest ih =>
    rw [map_cons, lookup_cons]
    by_cases same : column = c
    · simp [same]
    · simp [beq_false_of_ne same, same, ih]

theorem get_map_mem (member : column ∈ columns) :
    ColumnMap.get (columns.map fun c => (c, f c)) column = some (f column) := by
  unfold ColumnMap.get
  rw [← map_reverse, lookup_map, if_pos (mem_reverse.mpr member)]

/-! ## Chunks -/

theorem chunksFrom_flatten {α : Type} {size : Nat} (current list : List α) :
    (chunksFrom size current list).flatten = current ++ list := by
  induction list generalizing current with
  | nil =>
    unfold chunksFrom
    split
    · simp_all
    · simp
  | cons a rest ih =>
    unfold chunksFrom
    split
    · simp [ih]
    · simp [ih]

theorem mem_chunks {α : Type} {size : Nat} {list : List α} {a : α} :
    (∃ chunk ∈ chunks size list, a ∈ chunk) ↔ a ∈ list := by
  have flat : (chunks size list).flatten = list := chunksFrom_flatten [] list
  rw [← mem_flatten, flat]

/-! ## Values of selected columns -/

theorem columnIndex_some {index : Nat} (h : columnIndex columns column = some index) :
    columns[index]? = some column := by
  obtain ⟨⟨name, i⟩, found, rfl⟩ := Option.map_eq_some_iff.mp h
  have member := mem_reverse.mp (mem_of_find?_eq_some found)
  have same : name = column := by simpa using find?_some found
  rw [← same]
  exact mem_zipIdx_iff_getElem?.mp member

theorem columnIndex_isSome (member : column ∈ columns) :
    ∃ index, columnIndex columns column = some index := by
  obtain ⟨index, at_⟩ := mem_iff_getElem?.mp member
  unfold columnIndex
  cases found : columns.zipIdx.reverse.find? fun entry => entry.1 == column with
  | some entry => exact ⟨entry.2, rfl⟩
  | none =>
    have := find?_eq_none.mp found (column, index)
      (mem_reverse.mpr (mem_zipIdx_iff_getElem?.mpr at_))
    simp at this

theorem rowValue_normalizeRowLen {row : FetchedRow} {length index : Nat} :
    rowValue (normalizeRowLen row length) index = rowValue row index := by
  unfold rowValue normalizeRowLen
  rw [getD_eq_getElem?_getD, getD_eq_getElem?_getD, getElem?_append]
  split
  · rfl
  have outside : row[index]? = none := getElem?_eq_none (by omega)
  rw [outside, getElem?_replicate]
  split <;> rfl

theorem valueAt_normalizeRowLen (columns : List Str) (row : FetchedRow) (length : Nat) :
    valueAt columns (normalizeRowLen row length) = valueAt columns row := by
  funext column
  unfold valueAt
  split
  · exact rowValue_normalizeRowLen
  · rfl

/-- The value that a comparison sees in a column: null if the column was not selected. -/
def seen (columns : List Str) (row : TableRow) (column : Str) : Value :=
  if column ∈ columns then row column else .null

theorem valueAt_select {keyColumns : List Str} (side : Side keyColumns) (columns : List Str)
    (row : TableRow) : valueAt columns (side.select columns row) = seen columns row := by
  funext column
  unfold valueAt seen
  cases found : columnIndex columns column with
  | none =>
    by_cases member : column ∈ columns
    · obtain ⟨index, some⟩ := columnIndex_isSome member
      rw [found] at some
      cases some
    · rw [if_neg member]
  | some index =>
    have at_ := columnIndex_some found
    have member : column ∈ columns := mem_iff_getElem?.mpr ⟨index, at_⟩
    have nonempty : columns.isEmpty = false := by
      cases columns with
      | nil => cases member
      | cons c rest => rfl
    rw [if_pos member]
    simp [Side.select, nonempty, rowValue, at_]

/-! ## Keys -/

section Keys

variable {keyColumns : List Str} (columns : List Str)

theorem keyForRow_inj {row row' : FetchedRow} :
    keyForRow columns keyColumns row = keyForRow columns keyColumns row' ↔
      keyColumns.map (valueAt columns row) = keyColumns.map (valueAt columns row') := by
  have separate (r : FetchedRow) : ∀ t ∈ keyColumns.map fun column =>
      (valueAt columns r column).jsonStringify, unitSeparator ∉ t := by
    intro t member control
    obtain ⟨column, -, rfl⟩ := mem_map.mp member
    have printable := all_eq_true.mp (Value.jsonStringify_printable _) _ control
    exact absurd printable (by decide)
  constructor
  · intro same
    have texts := joinWith_inj (by simp) (separate row) (separate row') same
    refine map_inj_left.mpr fun column member => ?_
    exact Value.jsonStringify_injective (map_inj_left.mp texts column member)
  · intro same
    have texts := congrArg (List.map Value.jsonStringify) same
    rw [map_map, map_map] at texts
    exact congrArg (joinWith [unitSeparator]) texts

/-- The entry that a fetched row is collected as. -/
def entryOf (keyColumns : List Str) (row : FetchedRow) : Str × FetchedRow :=
  (keyForRow columns keyColumns row, normalizeRowLen row columns.length)

theorem get_isSome {rows : RowsByKey} {key : Str} :
    (rows.get key).isSome = true ↔ key ∈ rows.map (·.1) := by
  unfold RowsByKey.get
  induction rows with
  | nil => simp
  | cons entry rest ih =>
    rw [lookup_cons, map_cons, mem_cons, ← ih]
    by_cases same : key = entry.1
    · simp [same]
    · rw [beq_false_of_ne same]
      exact ⟨.inr, fun h => h.resolve_left same⟩

/-- Rows are collected one for one, exactly when no key repeats. -/
theorem collectCompareRows_ok {label : String} (items : RowsByKey) {result : RowsByKey}
    {rows : List FetchedRow} (distinct : (items.map (·.1)).Nodup) :
    collectCompareRows columns keyColumns label items rows = .ok result ↔
      result = items ++ rows.map (entryOf columns keyColumns) ∧
        (items.map (·.1) ++ rows.map (keyForRow columns keyColumns)).Nodup := by
  induction rows generalizing items with
  | nil => simp [collectCompareRows, eq_comm, distinct]
  | cons row rows ih =>
    unfold collectCompareRows
    by_cases taken : (items.get (keyForRow columns keyColumns row)).isSome = true
    · rw [if_pos taken]
      constructor
      · intro h
        cases h
      · rintro ⟨-, nodup⟩
        have apart := (nodup_append.mp nodup).2.2
        exact absurd rfl (apart _ (get_isSome.mp taken) _ (by simp))
    · rw [if_neg taken]
      have free := mt get_isSome.mpr taken
      have distinct' : ((items ++ [entryOf columns keyColumns row]).map (·.1)).Nodup := by
        rw [map_append, map_singleton, ← concat_eq_append]
        exact List.Nodup.concat free distinct
      have step := ih _ distinct'
      rw [append_assoc, map_append, append_assoc] at step
      exact step

end Keys

/-! ## The plan for compared rows -/

section Plan

variable {keyColumns columns : List Str} {columnInfo : List DataGridColumnInfo}

theorem whereByKey_keyValues (columns keyColumns : List Str) (row : FetchedRow) :
    whereByKey keyColumns (keyValuesForRow columns keyColumns row) =
      keyColumns.map fun column => (column, valueAt columns row column) := by
  unfold keyValuesForRow
  refine map_inj_left.mpr fun column member => ?_
  rw [get_map_mem member]
  rfl

theorem insert_not_deletes {added : List ComparedRow}
    (member : statement ∈ generateInsertSyncStatements columns columnInfo added) :
    ¬ Deletes statement row := by
  unfold generateInsertSyncStatements at member
  dsimp only at member
  split at member
  · obtain ⟨_, _, rfl⟩ := mem_map.mp member
    exact id
  · obtain ⟨_, _, rfl⟩ := mem_map.mp member
    exact id

theorem update_no_effect {modified : List ModifiedRow}
    (member : statement ∈ generateUpdateSyncStatements columns keyColumns columnInfo modified) :
    (∀ row, ¬ Deletes statement row) ∧ ∀ key, ¬ Inserts keyColumns statement key := by
  obtain ⟨chunk, -, member⟩ := mem_flatMap.mp member
  unfold updateChunk at member
  split at member
  · rw [mem_singleton.mp member]
    exact ⟨fun _ => id, fun _ => id⟩
  dsimp only at member
  split at member
  · cases member
  · rw [mem_singleton.mp member]
    exact ⟨fun _ => id, fun _ => id⟩

theorem delete_not_inserts {removed : List ComparedRow}
    (member : statement ∈ generateDeleteSyncStatements keyColumns removed) :
    ¬ Inserts keyColumns statement key := by
  obtain ⟨_, _, rfl⟩ := mem_map.mp member
  exact id

/-- A plan deletes the rows with the key of a removed entry. -/
theorem generate_deletes :
    (∃ statement ∈ generateDataSyncStatements columns keyColumns columnInfo diff,
      Deletes statement row) ↔
      ∃ removed ∈ diff.removed, Holds (whereByKey keyColumns removed.keyValues) row := by
  constructor
  · rintro ⟨statement, member, deletes⟩
    rcases mem_append.mp member with member | member
    · rcases mem_append.mp member with member | member
      · exact absurd deletes (insert_not_deletes member)
      · exact absurd deletes ((update_no_effect member).1 row)
    obtain ⟨chunk, inPlan, rfl⟩ := mem_map.mp member
    obtain ⟨key, member, holds⟩ := deletes
    obtain ⟨removed, inChunk, rfl⟩ := mem_map.mp member
    exact ⟨removed, mem_chunks.mp ⟨chunk, inPlan, inChunk⟩, holds⟩
  · rintro ⟨removed, member, holds⟩
    obtain ⟨chunk, inPlan, inChunk⟩ := mem_chunks.mpr member
    refine ⟨.delete (chunk.map fun row => whereByKey keyColumns row.keyValues), ?_, ?_⟩
    · exact mem_append_right _ (mem_map_of_mem inPlan)
    · exact ⟨_, mem_map_of_mem inChunk, holds⟩

/-- The key that the values of an added row give to the inserted one. -/
def writtenKey (keyColumns columns : List Str) (columnInfo : List DataGridColumnInfo)
    (values : ColumnMap) : Option (List Value) :=
  let writableColumns := columns.filter (isWritable columnInfo)
  insertedKey keyColumns writableColumns
    (writableColumns.map fun column => (values.get column).getD .null)

theorem insert_inserts {added : List ComparedRow} (keyed : keyColumns ≠ []) :
    (∃ statement ∈ generateInsertSyncStatements columns columnInfo added,
      Inserts keyColumns statement key) ↔
      ∃ row ∈ added, writtenKey keyColumns columns columnInfo row.values = some key := by
  unfold generateInsertSyncStatements writtenKey
  dsimp only
  split
  · -- nothing is written: the rows take their defaults
    rename_i empty
    rw [isEmpty_iff.mp empty]
    obtain ⟨first, rest, rfl⟩ := exists_cons_of_ne_nil keyed
    constructor
    · rintro ⟨statement, member, inserts⟩
      obtain ⟨_, _, rfl⟩ := mem_map.mp member
      exact absurd inserts id
    · rintro ⟨row, -, written⟩
      simp [insertedKey] at written
  · constructor
    · rintro ⟨statement, member, inserts⟩
      obtain ⟨chunk, inPlan, rfl⟩ := mem_map.mp member
      obtain ⟨values, member, written⟩ := inserts
      obtain ⟨row, inChunk, rfl⟩ := mem_map.mp member
      exact ⟨row, mem_chunks.mp ⟨chunk, inPlan, inChunk⟩, written⟩
    · rintro ⟨row, member, written⟩
      obtain ⟨chunk, inPlan, inChunk⟩ := mem_chunks.mpr member
      exact ⟨_, mem_map_of_mem inPlan,
        _, mem_map_of_mem inChunk, written⟩

/-- A plan inserts the keys of the added entries. -/
theorem generate_inserts (keyed : keyColumns ≠ []) :
    (∃ statement ∈ generateDataSyncStatements columns keyColumns columnInfo diff,
      Inserts keyColumns statement key) ↔
      ∃ row ∈ diff.added, writtenKey keyColumns columns columnInfo row.values = some key := by
  rw [← insert_inserts keyed]
  constructor
  · rintro ⟨statement, member, inserts⟩
    rcases mem_append.mp member with member | member
    · rcases mem_append.mp member with member | member
      · exact ⟨statement, member, inserts⟩
      · exact absurd inserts ((update_no_effect member).2 key)
    · exact absurd inserts (delete_not_inserts member)
  · rintro ⟨statement, member, inserts⟩
    exact ⟨statement, mem_append_left _ (mem_append_left _ member), inserts⟩

variable {sourceRows targetRows : List FetchedRow}

theorem collect_ok {label : String} {rows : List FetchedRow} {result : RowsByKey} :
    collectCompareRows columns keyColumns label [] rows = .ok result ↔
      result = rows.map (entryOf columns keyColumns) ∧
        (rows.map (keyForRow columns keyColumns)).Nodup := by
  simpa using collectCompareRows_ok columns [] nodup_nil

/-- A comparison succeeds exactly when there is a key and no side repeats one. -/
theorem compareDataRows_ok (same : Value → Value → Bool) :
    compareDataRowsBy same columns keyColumns sourceRows targetRows = .ok diff ↔
      keyColumns ≠ [] ∧ (sourceRows.map (keyForRow columns keyColumns)).Nodup ∧
        (targetRows.map (keyForRow columns keyColumns)).Nodup ∧
        diff = ⟨addedRows columns keyColumns (sourceRows.map (entryOf columns keyColumns))
            (targetRows.map (entryOf columns keyColumns)),
          removedRows columns keyColumns (sourceRows.map (entryOf columns keyColumns))
            (targetRows.map (entryOf columns keyColumns)),
          modifiedRows same columns keyColumns (sourceRows.map (entryOf columns keyColumns))
            (targetRows.map (entryOf columns keyColumns))⟩ := by
  unfold compareDataRowsBy
  by_cases empty : keyColumns = []
  · simp [empty]
  simp only [List.isEmpty_iff, empty, ne_eq, not_false_eq_true, true_and]
  cases source : collectCompareRows columns keyColumns "source" [] sourceRows with
  | error e =>
    refine iff_of_false (fun h => by cases h) fun ⟨distinct, _⟩ => ?_
    rw [collect_ok.mpr ⟨rfl, distinct⟩] at source
    cases source
  | ok sourceItems =>
    obtain ⟨rfl, sourceDistinct⟩ := collect_ok.mp source
    cases target : collectCompareRows columns keyColumns "target" [] targetRows with
    | error e =>
      refine iff_of_false (fun h => by cases h) fun ⟨_, distinct, _⟩ => ?_
      rw [collect_ok.mpr ⟨rfl, distinct⟩] at target
      cases target
    | ok targetItems =>
      obtain ⟨rfl, targetDistinct⟩ := collect_ok.mp target
      constructor
      · intro h
        cases h
        exact ⟨sourceDistinct, targetDistinct, rfl⟩
      · rintro ⟨-, -, rfl⟩
        rfl

/-- The rows of one side whose key the other side does not have. -/
theorem mem_addedRows {row : ComparedRow} :
    row ∈ addedRows columns keyColumns (sourceRows.map (entryOf columns keyColumns))
        (targetRows.map (entryOf columns keyColumns)) ↔
      ∃ source ∈ sourceRows,
        keyForRow columns keyColumns source ∉ targetRows.map (keyForRow columns keyColumns) ∧
        row = comparedRow columns keyColumns (keyForRow columns keyColumns source)
          (normalizeRowLen source columns.length) := by
  have keys : (targetRows.map (entryOf columns keyColumns)).map (·.1) =
      targetRows.map (keyForRow columns keyColumns) := by
    rw [map_map]
    rfl
  unfold addedRows
  rw [mem_filterMap]
  constructor
  · rintro ⟨entry, member, found⟩
    obtain ⟨source, inRows, rfl⟩ := mem_map.mp member
    dsimp only [entryOf] at found
    split at found
    · cases found
    · rename_i missing
      cases found
      exact ⟨source, inRows, fun h => missing (get_isSome.mpr (keys ▸ h)), rfl⟩
  · rintro ⟨source, member, missing, rfl⟩
    refine ⟨entryOf columns keyColumns source, mem_map_of_mem member, ?_⟩
    dsimp only [entryOf]
    rw [if_neg fun h => missing (keys ▸ get_isSome.mp h)]

/-! ## The plan for the rows of two tables -/

theorem lookup_map_find {columns : List (Str × Nat)} {f : Nat → Value} :
    (columns.map fun entry => (entry.1, f entry.2)).lookup column =
      (columns.find? fun entry => entry.1 == column).map fun entry => f entry.2 := by
  induction columns with
  | nil => rfl
  | cons entry rest ih =>
    rw [map_cons, lookup_cons, find?_cons]
    by_cases same : column = entry.1
    · simp [same]
    · rw [beq_false_of_ne same, beq_false_of_ne (Ne.symm same)]
      exact ih

theorem rowObject_get (columns : List Str) (row : FetchedRow) (column : Str) :
    (rowObject columns row).get column = (columnIndex columns column).map (rowValue row) := by
  unfold ColumnMap.get rowObject columnIndex
  rw [← map_reverse, Option.map_map]
  exact lookup_map_find

theorem get_rowObject (columns : List Str) (row : FetchedRow) (column : Str) :
    ((rowObject columns row).get column).getD .null = valueAt columns row column := by
  rw [rowObject_get]
  unfold valueAt
  cases columnIndex columns column <;> rfl

/-- An inserted row has a key if all key columns are written, and then their values. -/
theorem insertedKey_map (written : List Str) (f : Str → Value) :
    insertedKey keyColumns written (written.map f) =
      if ∀ column ∈ keyColumns, column ∈ written then some (keyColumns.map f) else none := by
  unfold insertedKey
  rw [← map_prod_left_eq_zip]
  induction keyColumns with
  | nil => simp
  | cons column rest ih =>
    rw [mapM_cons, ih, lookup_map]
    by_cases member : column ∈ written
    · simp only [member, forall_mem_cons, true_and, if_true]
      split <;> rfl
    · simp [member]

section Tables

variable (source target : Side keyColumns) (columns)

def KeysSelected (columns keyColumns : List Str) : Prop := ∀ column ∈ keyColumns, column ∈ columns

def KeysWritten (columnInfo : List DataGridColumnInfo) (keyColumns : List Str) : Prop :=
  ∀ column ∈ keyColumns, isWritable columnInfo column = true

theorem seen_selected (selected : KeysSelected columns keyColumns) (row : TableRow) :
    keyColumns.map (seen columns row) = keyOf keyColumns row := by
  refine map_inj_left.mpr fun column member => ?_
  exact if_pos (selected column member)

theorem keyForRow_select (side side' : Side keyColumns) (row row' : TableRow) :
    keyForRow columns keyColumns (side.select columns row) =
        keyForRow columns keyColumns (side'.select columns row') ↔
      keyColumns.map (seen columns row) = keyColumns.map (seen columns row') := by
  rw [keyForRow_inj, valueAt_select, valueAt_select]

/-- A key text is among those of fetched rows exactly when the key values are. -/
theorem keyForRow_mem (selected : KeysSelected columns keyColumns) (side side' : Side keyColumns)
    (row : TableRow) (rows : List TableRow) :
    keyForRow columns keyColumns (side.select columns row) ∈
        (rows.map (side'.select columns)).map (keyForRow columns keyColumns) ↔
      keyOf keyColumns row ∈ rows.map (keyOf keyColumns) := by
  rw [map_map, mem_map, mem_map]
  refine exists_congr fun other => and_congr_right fun _ => ?_
  rw [comp_apply, keyForRow_select, seen_selected columns selected,
    seen_selected columns selected]

variable {columns} {sourceRows targetRows : List TableRow} {diff : CompareResult}

/-- Rows with a non-null key satisfy the equations of that key only. -/
theorem holds_seen {removed : TableRow} (nonNull : ∀ column ∈ keyColumns, removed column ≠ .null) :
    Holds (keyColumns.map fun column => (column, seen columns removed column)) row ↔
      KeysSelected columns keyColumns ∧ keyOf keyColumns row = keyOf keyColumns removed := by
  unfold Holds
  rw [forall_mem_map]
  constructor
  · intro holds
    have selected : KeysSelected columns keyColumns := by
      intro column member
      by_contra missing
      exact (holds column member).1 (if_neg missing)
    refine ⟨selected, map_inj_left.mpr fun column member => ?_⟩
    rw [(holds column member).2]
    exact if_pos (selected column member)
  · rintro ⟨selected, same⟩ column member
    have value : seen columns removed column = removed column := if_pos (selected column member)
    rw [value]
    exact ⟨nonNull column member, map_inj_left.mp same column member⟩

/-- A plan deletes the rows whose key was compared on the target side only. -/
theorem plan_deletes (nonNull : ∀ row ∈ targetRows, ∀ column ∈ keyColumns, row column ≠ .null)
    (compared : compareDataRows columns keyColumns (sourceRows.map (source.select columns))
      (targetRows.map (target.select columns)) = .ok diff) :
    (∃ statement ∈ generateDataSyncStatements columns keyColumns columnInfo diff,
      Deletes statement row) ↔
      KeysSelected columns keyColumns ∧ ∃ removed ∈ targetRows,
        keyOf keyColumns removed ∉ sourceRows.map (keyOf keyColumns) ∧
        keyOf keyColumns row = keyOf keyColumns removed := by
  obtain ⟨-, -, -, rfl⟩ := (compareDataRows_ok _).mp compared
  rw [generate_deletes]
  constructor
  · rintro ⟨entry, member, holds⟩
    obtain ⟨fetched, inFetched, missing, rfl⟩ := mem_addedRows.mp member
    obtain ⟨removed, inRows, rfl⟩ := mem_map.mp inFetched
    dsimp only [comparedRow] at holds
    rw [whereByKey_keyValues, valueAt_normalizeRowLen, valueAt_select,
      holds_seen (nonNull removed inRows)] at holds
    refine ⟨holds.1, removed, inRows, ?_, holds.2⟩
    rwa [keyForRow_mem columns holds.1] at missing
  · rintro ⟨selected, removed, inRows, missing, same⟩
    refine ⟨_, mem_addedRows.mpr ⟨target.select columns removed,
      mem_map_of_mem inRows, ?_, rfl⟩, ?_⟩
    · rwa [keyForRow_mem columns selected]
    dsimp only [comparedRow]
    rw [whereByKey_keyValues, valueAt_normalizeRowLen, valueAt_select,
      holds_seen (nonNull removed inRows)]
    exact ⟨selected, same⟩

theorem writtenKey_select {side : Side keyColumns} {length : Nat} :
    writtenKey keyColumns columns columnInfo
        (rowObject columns (normalizeRowLen (side.select columns row) length)) = some key ↔
      KeysSelected columns keyColumns ∧ KeysWritten columnInfo keyColumns ∧
        key = keyOf keyColumns row := by
  have values : (fun column => ((rowObject columns (normalizeRowLen (side.select columns row)
      length)).get column).getD .null) = seen columns row := by
    funext column
    rw [get_rowObject, valueAt_normalizeRowLen, valueAt_select]
  unfold writtenKey
  dsimp only
  rw [values, insertedKey_map]
  by_cases all : KeysSelected columns keyColumns ∧ KeysWritten columnInfo keyColumns
  · rw [if_pos fun column member => mem_filter.mpr
      ⟨all.1 column member, all.2 column member⟩, seen_selected columns all.1]
    simp [all, eq_comm]
  · rw [if_neg fun every => all ⟨fun column member => (mem_filter.mp (every column member)).1,
      fun column member => (mem_filter.mp (every column member)).2⟩]
    exact iff_of_false (fun h => by cases h) fun h => all ⟨h.1, h.2.1⟩

/-- A plan inserts the keys that were compared on the source side only. -/
theorem plan_inserts
    (compared : compareDataRows columns keyColumns (sourceRows.map (source.select columns))
      (targetRows.map (target.select columns)) = .ok diff) :
    (∃ statement ∈ generateDataSyncStatements columns keyColumns columnInfo diff,
      Inserts keyColumns statement key) ↔
      KeysSelected columns keyColumns ∧ KeysWritten columnInfo keyColumns ∧
        ∃ added ∈ sourceRows, keyOf keyColumns added ∉ targetRows.map (keyOf keyColumns) ∧
          key = keyOf keyColumns added := by
  obtain ⟨keyed, -, -, rfl⟩ := (compareDataRows_ok _).mp compared
  rw [generate_inserts keyed]
  constructor
  · rintro ⟨entry, member, written⟩
    obtain ⟨fetched, inFetched, missing, rfl⟩ := mem_addedRows.mp member
    obtain ⟨added, inRows, rfl⟩ := mem_map.mp inFetched
    obtain ⟨selected, writable, rfl⟩ := writtenKey_select.mp written
    refine ⟨selected, writable, added, inRows, ?_, rfl⟩
    rwa [keyForRow_mem columns selected] at missing
  · rintro ⟨selected, writable, added, inRows, missing, rfl⟩
    refine ⟨_, mem_addedRows.mpr ⟨source.select columns added,
      mem_map_of_mem inRows, ?_, rfl⟩, ?_⟩
    · rwa [keyForRow_mem columns selected]
    · exact writtenKey_select.mpr ⟨selected, writable, rfl⟩

end Tables

end Plan

/-! ## Fetching -/

variable {fuel : Nat}

section Fetch

/-- The strategies whose page queries skip the rows before the offset. -/
def skipsOffset : TablePaginationStrategy → Bool
  | .irisTop | .agentMaxRows | .unbounded => false
  | _ => true

/-- The rows of a page. -/
theorem page_eq {α : Type} (strategy : TablePaginationStrategy) (batch offset : Nat)
    (rows : List α) :
    ((pageQuery strategy batch offset).answer rows).take batch =
      (rows.drop (if skipsOffset strategy then offset else 0)).take batch := by
  cases strategy <;> simp [pageQuery, PageQuery.answer, skipsOffset, take_take]

variable {rows result : List FetchedRow} {batch : Nat}

/-- A loop whose pages skip the offset reads what is left, whenever it ends. -/
theorem fetchPages_skipping {offset : Nat} (positive : 0 < batch)
    (done : fetchPages (fun offset => (rows.drop offset).take batch) batch fuel offset =
      some result) : result = rows.drop offset := by
  induction fuel generalizing offset result with
  | zero => cases done
  | succ fuel ih =>
    unfold fetchPages at done
    dsimp only at done
    rw [length_take] at done
    split at done
    · cases done
      exact (eq_nil_of_length_eq_zero (by omega)).symm
    split at done
    · cases done
      exact take_of_length_le (by omega)
    · obtain ⟨later, fetched, rfl⟩ := Option.map_eq_some_iff.mp done
      rw [ih fetched, min_eq_left (by omega), ← drop_drop]
      exact take_append_drop batch _

/-- A loop whose pages do not skip the offset ends only on a table of less than one page. -/
theorem fetchPages_restarting {offset : Nat} (positive : 0 < batch)
    (done : fetchPages (fun _ => rows.take batch) batch fuel offset = some result) :
    result = rows ∧ rows.length < batch := by
  induction fuel generalizing offset result with
  | zero => cases done
  | succ fuel ih =>
    unfold fetchPages at done
    dsimp only at done
    rw [length_take] at done
    split at done
    · cases done
      exact ⟨(eq_nil_of_length_eq_zero (by omega)).symm, by omega⟩
    split at done
    · cases done
      exact ⟨take_of_length_le (by omega), by omega⟩
    · obtain ⟨later, fetched, rfl⟩ := Option.map_eq_some_iff.mp done
      have := (ih fetched).2
      omega

/-- A fetch that ends has read the table. -/
theorem fetchCompareRows_eq {keyColumns : List Str} {side : Side keyColumns} (positive : 0 < batch)
    (done : fetchCompareRows side columns batch fuel = some result) :
    result = side.rows.map (side.select columns) := by
  unfold fetchCompareRows at done
  simp only [page_eq, map_take, map_drop] at done
  by_cases skips : skipsOffset (boundedReadStrategy side.databaseType)
  · simp only [skips, if_true] at done
    exact fetchPages_skipping positive done
  · simp only [skips] at done
    exact (fetchPages_restarting positive done).1

end Fetch

/-! ## The comparison of two tables -/

section FromTables

variable (options : FromTablesOptions) (source target : Side options.keyColumns)

/-- The rows of a sample that the comparison gets. -/
def sampledRows {side : Side options.keyColumns} (sample : options.SampleOf side) : List TableRow :=
  if options.threshold.sampleSize = 0 then [] else sample.rows.take options.threshold.sampleSize

theorem mem_of_mayReturn {part : SamplePart} {ordered rows : List TableRow}
    (h : part.MayReturn ordered rows) : rows ⊆ ordered := by
  cases part with
  | head count => exact h ▸ take_subset _ _
  | tail count => exact fun row member => mem_reverse.mp (take_subset _ _ (h ▸ member))
  | random | unordered => exact h.2.subset

theorem mem_of_pieces {parts : List SamplePart} {ordered : List TableRow}
    {pieces : List (List TableRow)}
    (returned : List.Forall₂ (fun part => part.MayReturn ordered) parts pieces) :
    pieces.flatten ⊆ ordered := by
  induction returned with
  | nil => exact nil_subset _
  | cons piece _ ih => exact append_subset.mpr ⟨mem_of_mayReturn piece, ih⟩

theorem sampledRows_subset {side : Side options.keyColumns} (sample : options.SampleOf side) :
    sampledRows options sample ⊆ side.rows := by
  intro row member
  unfold sampledRows at member
  split at member
  · cases member
  · obtain ⟨pieces, returned, perm⟩ := sample.possible
    exact mem_of_pieces returned (perm.mem_iff.mp (mem_of_mem_take member))

/-- No statement deletes a target row whose key the source table has, and none inserts a key
that the target table has. -/
structure PlanSafe (plan : List SyncStatement) : Prop where
  deletes : ∀ statement ∈ plan, ∀ row ∈ target.rows, Deletes statement row →
    keyOf options.keyColumns row ∉ source.rows.map (keyOf options.keyColumns)
  inserts : ∀ statement ∈ plan, ∀ key, Inserts options.keyColumns statement key →
    key ∉ target.rows.map (keyOf options.keyColumns)

/-- Every compared key that the other table has was compared there as well. -/
structure RowsAgree (columnInfo : List DataGridColumnInfo) (sourceRows targetRows : List TableRow) :
    Prop where
  ofTarget : ∀ row ∈ targetRows,
    keyOf options.keyColumns row ∈ source.rows.map (keyOf options.keyColumns) →
    keyOf options.keyColumns row ∈ sourceRows.map (keyOf options.keyColumns)
  ofSource : KeysWritten columnInfo options.keyColumns → ∀ row ∈ sourceRows,
    keyOf options.keyColumns row ∈ target.rows.map (keyOf options.keyColumns) →
    keyOf options.keyColumns row ∈ targetRows.map (keyOf options.keyColumns)

variable {options source target} {columnInfo : List DataGridColumnInfo}
  {sourceRows targetRows : List TableRow} {diff : CompareResult}

theorem planSafe_iff (inTarget : targetRows ⊆ target.rows)
    (compared : compareDataRows options.columns options.keyColumns
      (sourceRows.map (source.select options.columns))
      (targetRows.map (target.select options.columns)) = .ok diff) :
    PlanSafe options source target
        (generateDataSyncStatements options.columns options.keyColumns columnInfo diff) ↔
      (KeysSelected options.columns options.keyColumns →
        RowsAgree options source target columnInfo sourceRows targetRows) := by
  have nonNull : ∀ row ∈ targetRows, ∀ column ∈ options.keyColumns, row column ≠ .null :=
    fun row member => target.nonNull row (inTarget member)
  constructor
  · intro safe selected
    refine ⟨fun row member inSource => ?_, fun written row member inTarget' => ?_⟩
    · by_contra missing
      obtain ⟨statement, inPlan, deletes⟩ := (plan_deletes source target nonNull compared).mpr
        ⟨selected, row, member, missing, rfl⟩
      exact safe.deletes statement inPlan row (inTarget member) deletes inSource
    · by_contra missing
      obtain ⟨statement, inPlan, inserts⟩ := (plan_inserts source target compared).mpr
        ⟨selected, written, row, member, missing, rfl⟩
      exact safe.inserts statement inPlan _ inserts inTarget'
  · intro agree
    refine ⟨fun statement inPlan row _ deletes inSource => ?_,
      fun statement inPlan key inserts inTarget' => ?_⟩
    · obtain ⟨selected, removed, member, missing, same⟩ :=
        (plan_deletes source target nonNull compared).mp ⟨statement, inPlan, deletes⟩
      rw [same] at inSource
      exact missing ((agree selected).ofTarget removed member inSource)
    · obtain ⟨selected, written, added, member, missing, rfl⟩ :=
        (plan_inserts source target compared).mp ⟨statement, inPlan, inserts⟩
      exact missing ((agree selected).ofSource written added member inTarget')

variable (options source target)

def degradationLevel : DegradationLevel :=
  shouldDegrade source.rows.length target.rows.length options.threshold

/-- The rows of the two tables that are compared at the degradation level. -/
def comparedRows (sourceSample : options.SampleOf source) (targetSample : options.SampleOf target) :
    List TableRow × List TableRow :=
  match degradationLevel options source target with
  | .full => (source.rows, target.rows)
  | .sample => (sampledRows options sourceSample, sampledRows options targetSample)
  | .skipWithRisk => ([], [])

variable {options source target} {printer : Printer} {sourceSample : options.SampleOf source}
  {targetSample : options.SampleOf target} {fuel : Nat}

theorem fetchSampled_eq {side : Side options.keyColumns} {sample : options.SampleOf side} :
    fetchSampledCompareRows options side sample =
      (sampledRows options sample).map (side.select options.columns) := by
  unfold fetchSampledCompareRows sampledRows
  dsimp only
  split <;> rfl

theorem rowsToCompare_eq {rows : List FetchedRow × List FetchedRow × String}
    (fetched : rowsToCompare options source target sourceSample targetSample fuel
      (degradationLevel options source target) = some rows) :
    rows.1 = (comparedRows options source target sourceSample targetSample).1.map
        (source.select options.columns) ∧
      rows.2.1 = (comparedRows options source target sourceSample targetSample).2.map
        (target.select options.columns) := by
  have positive : 0 < options.batchSize := Nat.lt_of_lt_of_le Nat.one_pos (le_max_right _ _)
  unfold comparedRows
  cases level : degradationLevel options source target with
  | full =>
    rw [level] at fetched
    obtain ⟨sourceRows, readSource, fetched⟩ := Option.bind_eq_some_iff.mp fetched
    obtain ⟨targetRows, readTarget, rfl⟩ := Option.map_eq_some_iff.mp fetched
    exact ⟨fetchCompareRows_eq positive readSource, fetchCompareRows_eq positive readTarget⟩
  | sample =>
    rw [level] at fetched
    cases fetched
    exact ⟨fetchSampled_eq, fetchSampled_eq⟩
  | skipWithRisk =>
    rw [level] at fetched
    cases fetched
    exact ⟨rfl, rfl⟩

/-- A plan comes from a comparison of the compared rows. -/
theorem prepare_ok {preparation : FromTablesPreparation}
    (prepared : prepareDataCompareFromTables options source target printer columnInfo sourceSample
      targetSample fuel = some (.ok preparation)) :
    ∃ diff, compareDataRows options.columns options.keyColumns
        ((comparedRows options source target sourceSample targetSample).1.map
          (source.select options.columns))
        ((comparedRows options source target sourceSample targetSample).2.map
          (target.select options.columns)) = .ok diff ∧
      preparation.plan =
        generateDataSyncStatements options.columns options.keyColumns columnInfo diff := by
  unfold prepareDataCompareFromTables at prepared
  rw [source.counted, target.counted] at prepared
  obtain ⟨rows, fetched, prepared⟩ := Option.map_eq_some_iff.mp prepared
  obtain ⟨ofSource, ofTarget⟩ := rowsToCompare_eq fetched
  obtain ⟨sourceRows, targetRows, method⟩ := rows
  rw [← ofSource, ← ofTarget]
  cases compared : compareDataRows options.columns options.keyColumns sourceRows targetRows with
  | error e =>
    simp only [prepareDataCompare, compared] at prepared
    cases prepared
  | ok diff =>
    simp only [prepareDataCompare, compared] at prepared
    cases prepared
    exact ⟨diff, rfl, rfl⟩

/-- Samples that can be compared give a plan. -/
theorem prepare_sample (level : degradationLevel options source target = .sample)
    (compared : compareDataRows options.columns options.keyColumns
      ((sampledRows options sourceSample).map (source.select options.columns))
      ((sampledRows options targetSample).map (target.select options.columns)) = .ok diff) :
    ∃ preparation, prepareDataCompareFromTables options source target printer columnInfo
        sourceSample targetSample fuel = some (.ok preparation) ∧
      preparation.plan =
        generateDataSyncStatements options.columns options.keyColumns columnInfo diff := by
  have level' : shouldDegrade source.rows.length target.rows.length options.threshold =
      .sample := level
  unfold prepareDataCompareFromTables
  rw [source.counted, target.counted]
  simp only [level', rowsToCompare, fetchSampled_eq, Option.map_some, prepareDataCompare, compared]
  exact ⟨_, rfl, rfl⟩

theorem comparedRows_subset : (comparedRows options source target sourceSample targetSample).2 ⊆
    target.rows := by
  unfold comparedRows
  cases degradationLevel options source target with
  | full => exact List.Subset.refl _
  | sample => exact sampledRows_subset options targetSample
  | skipWithRisk => exact nil_subset _

theorem rowsAgree_of_not_sample (level : degradationLevel options source target ≠ .sample) :
    RowsAgree options source target columnInfo
      (comparedRows options source target sourceSample targetSample).1
      (comparedRows options source target sourceSample targetSample).2 := by
  unfold comparedRows
  cases found : degradationLevel options source target with
  | full => exact ⟨fun _ _ => id, fun _ _ _ => id⟩
  | sample => exact absurd found level
  | skipWithRisk => exact ⟨by simp, by simp⟩

/-- Selected keys repeat in the fetched rows exactly when they repeat in the table rows. -/
theorem nodup_keyForRow (selected : KeysSelected options.columns options.keyColumns)
    (side : Side options.keyColumns) (rows : List TableRow) :
    ((rows.map (side.select options.columns)).map
        (keyForRow options.columns options.keyColumns)).Nodup ↔
      (rows.map (keyOf options.keyColumns)).Nodup := by
  unfold List.Nodup
  rw [map_map, pairwise_map, pairwise_map]
  refine List.Pairwise.iff fun row row' => not_congr ?_
  rw [comp_apply, comp_apply, keyForRow_select,
    seen_selected options.columns selected, seen_selected options.columns selected]

variable (options source target columnInfo sourceSample targetSample)

/-- If samples are compared, every sampled key that the other table has is sampled there as
well. Samples that repeat a key, or that lack a key column, give no statement to worry about. -/
def SamplesAgree : Prop :=
  degradationLevel options source target = .sample → options.keyColumns ≠ [] →
  KeysSelected options.columns options.keyColumns →
  ((sampledRows options sourceSample).map (keyOf options.keyColumns)).Nodup →
  ((sampledRows options targetSample).map (keyOf options.keyColumns)).Nodup →
  RowsAgree options source target columnInfo (sampledRows options sourceSample)
    (sampledRows options targetSample)

variable (printer)

/-- A plan is safe for all tables, thresholds and sampling outcomes in which the samples agree,
and only for those. -/
theorem sync_plan_safe_iff :
    (∀ fuel preparation, prepareDataCompareFromTables options source target printer columnInfo
        sourceSample targetSample fuel = some (.ok preparation) →
      PlanSafe options source target preparation.plan) ↔
      SamplesAgree options source target columnInfo sourceSample targetSample := by
  constructor
  · intro safe level keyed selected sourceDistinct targetDistinct
    have compared := (compareDataRows_ok fun cell other => cell == other).mpr ⟨keyed,
      (nodup_keyForRow selected source _).mpr sourceDistinct,
      (nodup_keyForRow selected target _).mpr targetDistinct, rfl⟩
    obtain ⟨preparation, prepared, plan⟩ := prepare_sample level compared
    refine (planSafe_iff (sampledRows_subset options targetSample) compared).mp ?_ selected
    rw [← plan]
    exact safe 0 preparation prepared
  · intro agree fuel preparation prepared
    obtain ⟨diff, compared, plan⟩ := prepare_ok prepared
    rw [plan, planSafe_iff comparedRows_subset compared]
    intro selected
    by_cases level : degradationLevel options source target = .sample
    · obtain ⟨keyed, sourceDistinct, targetDistinct, -⟩ := (compareDataRows_ok _).mp compared
      rw [nodup_keyForRow selected] at sourceDistinct targetDistinct
      have rows : comparedRows options source target sourceSample targetSample =
          (sampledRows options sourceSample, sampledRows options targetSample) := by
        unfold comparedRows
        rw [level]
      rw [rows] at sourceDistinct targetDistinct ⊢
      exact agree level keyed selected sourceDistinct targetDistinct
    · exact rowsAgree_of_not_sample level

end FromTables

/-! ## Two samples that disagree -/

/-- A table with the one column `id` and three rows. -/
def threeRows (a b c : Char) (distinct : [a, b, c].Nodup) : Side ["id".toList] where
  databaseType := .postgres
  columns := ["id".toList]
  rows := [fun _ => .string [a], fun _ => .string [b], fun _ => .string [c]]
  distinct := by
    simpa [keyOf] using distinct
  nonNull := by simp
  countRows := [[.string ['3']]]
  counted := by rfl

/-- Samples of the first and the last row, on tables of more than two rows. -/
def extremesOnly : FromTablesOptions where
  columns := ["id".toList]
  keyColumns := ["id".toList]
  fetchBatchSize := none
  degradationThreshold := some ⟨2, 10, 2⟩
  samplingStrategy := some .extremeValues

def extremes (side : Side ["id".toList]) : extremesOnly.SampleOf side where
  rows := side.rows.take 1 ++ side.rows.reverse.take 1
  possible := ⟨[side.rows.take 1, side.rows.reverse.take 1],
    .cons rfl (.cons rfl .nil), by simp⟩

/-- Both tables have the key `b`; only the target's sample does, so `b` is deleted. -/
theorem sync_plan_deletes_common_key :
    let printer : Printer := ⟨"t".toList, id, fun value _ => value.jsonStringify⟩
    let source := threeRows 'a' 'b' 'c' (by decide)
    let target := threeRows 'b' 'c' 'd' (by decide)
    ∃ preparation, prepareDataCompareFromTables extremesOnly source target printer []
        (extremes source) (extremes target) 0 = some (.ok preparation) ∧
      ¬ PlanSafe extremesOnly source target preparation.plan := by
  refine ⟨_, rfl, fun safe => ?_⟩
  refine safe.deletes (.delete [[("id".toList, .string ['b'])], [("id".toList, .string ['d'])]])
    (by decide) (fun _ => .string ['b']) (by simp [threeRows]) ?_ ?_
  · exact ⟨_, mem_cons_self, by simp [Holds]⟩
  · simp [threeRows, keyOf, extremesOnly]

end Dbx.Guarantees.SyncPlan
