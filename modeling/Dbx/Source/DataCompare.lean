import Mathlib.Data.List.Perm.Subperm
import Dbx.Source.Cells
import Dbx.Source.DatabaseType

/-!
# Data comparison and its sync plan

Model of `prepare_data_compare_from_tables`, `compare_data_rows` and
`generate_data_sync_statements` (`crates/dbx-core/src/data_compare.rs:288-455`,
`645-1031`, `1165-1279`, `1401-1583`, with `sql_dialect/capabilities.rs:89-119`).

A plan is kept as structured statements together with their text. Quoting of names and
printing of literals are parameters (`Printer`). `HashMap`s keyed by column are lists of
pairs in insertion order, of which the last one counts; the map from key to row and the
order of the keys are one list. The parallel iterators keep their order.

Checksums, sampling rate and confidence are left out: no statement depends on them. So
are the errors of a failing connection, after which there is no plan.
-/
namespace Dbx.Source.DataCompare

open Dbx.Lib.Text

/-! ## Comparing fetched rows -/

/-- A fetched row, in the order of the selected columns. -/
abbrev FetchedRow := List Value

/-- A `HashMap` from column to value, in insertion order. -/
abbrev ColumnMap := List (Str × Value)

def ColumnMap.get (map : ColumnMap) (column : Str) : Option Value := map.reverse.lookup column

/-- `column_index_map`: the last position of a column. -/
def columnIndex (columns : List Str) (column : Str) : Option Nat :=
  (columns.zipIdx.reverse.find? fun entry => entry.1 == column).map (·.2)

def rowValue (row : FetchedRow) (index : Nat) : Value := row.getD index .null

/-- The value that a row has in a column; null if the column was not selected. -/
def valueAt (columns : List Str) (row : FetchedRow) (column : Str) : Value :=
  match columnIndex columns column with
  | some index => rowValue row index
  | none => .null

def unitSeparator : Char := Char.ofNat 0x1f

def keyForRow (columns keyColumns : List Str) (row : FetchedRow) : Str :=
  joinWith [unitSeparator] (keyColumns.map fun column => (valueAt columns row column).jsonStringify)

def keyValuesForRow (columns keyColumns : List Str) (row : FetchedRow) : ColumnMap :=
  keyColumns.map fun column => (column, valueAt columns row column)

def rowObject (columns : List Str) (row : FetchedRow) : ColumnMap :=
  columns.zipIdx.map fun (column, index) => (column, rowValue row index)

def normalizeRowLen (row : FetchedRow) (columnLen : Nat) : FetchedRow :=
  row ++ List.replicate (columnLen - row.length) .null

def duplicateKeyError (label : String) (keyColumns : List Str) (key : Str) : Str :=
  let keyDisplay :=
    if keyColumns.length > 1 then
      "[".toList ++ joinWith ", ".toList (key.splitOn unitSeparator) ++ "]".toList
    else key
  "Duplicate ".toList ++ label.toList ++ " key for column(s) [".toList
    ++ joinWith ", ".toList keyColumns ++ "]: ".toList ++ keyDisplay

/-- The rows by their key, in the order in which they were fetched. -/
abbrev RowsByKey := List (Str × FetchedRow)

def RowsByKey.get (rows : RowsByKey) (key : Str) : Option FetchedRow := rows.lookup key

/-- The loop of `collect_compare_rows`; `items` has the rows so far. -/
def collectCompareRows (columns keyColumns : List Str) (label : String) (items : RowsByKey) :
    List FetchedRow → Except Str RowsByKey
  | [] => .ok items
  | row :: rows =>
    let key := keyForRow columns keyColumns row
    if (items.get key).isSome then .error (duplicateKeyError label keyColumns key)
    else collectCompareRows columns keyColumns label
      (items ++ [(key, normalizeRowLen row columns.length)]) rows

structure ChangedCell where
  column : Str
  source : Value
  target : Value
  deriving DecidableEq

structure ComparedRow where
  key : Str
  keyValues : ColumnMap
  values : ColumnMap
  deriving DecidableEq

structure ModifiedRow where
  key : Str
  keyValues : ColumnMap
  sourceValues : ColumnMap
  targetValues : ColumnMap
  changes : List ChangedCell
  deriving DecidableEq

structure CompareResult where
  added : List ComparedRow
  removed : List ComparedRow
  modified : List ModifiedRow
  deriving DecidableEq

def comparedRow (columns keyColumns : List Str) (key : Str) (row : FetchedRow) : ComparedRow :=
  ⟨key, keyValuesForRow columns keyColumns row, rowObject columns row⟩

/-- The cells in which two rows differ. `same` is the equality of cells: that of the JSON
library does not look at the order of an object's members. -/
def changedCells (same : Value → Value → Bool) (columns keyColumns : List Str)
    (source target : FetchedRow) : List ChangedCell :=
  (columns.filter fun column => !keyColumns.contains column).filterMap fun column =>
    (columnIndex columns column).bind fun index =>
      if same (rowValue source index) (rowValue target index) then none
      else some ⟨column, rowValue source index, rowValue target index⟩

def addedRows (columns keyColumns : List Str) (source target : RowsByKey) : List ComparedRow :=
  source.filterMap fun (key, row) =>
    if (target.get key).isSome then none else some (comparedRow columns keyColumns key row)

def modifiedRows (same : Value → Value → Bool) (columns keyColumns : List Str)
    (source target : RowsByKey) : List ModifiedRow :=
  source.filterMap fun (key, row) =>
    (target.get key).bind fun targetRow =>
      let changes := changedCells same columns keyColumns row targetRow
      if changes.isEmpty then none
      else some ⟨key, keyValuesForRow columns keyColumns row, rowObject columns row,
        rowObject columns targetRow, changes⟩

def removedRows (columns keyColumns : List Str) (source target : RowsByKey) : List ComparedRow :=
  target.filterMap fun (key, row) =>
    if (source.get key).isSome then none else some (comparedRow columns keyColumns key row)

def compareDataRowsBy (same : Value → Value → Bool) (columns keyColumns : List Str)
    (sourceRows targetRows : List FetchedRow) : Except Str CompareResult := do
  if keyColumns.isEmpty then
    .error "At least one key column is required for data comparison".toList
  else
    let source ← collectCompareRows columns keyColumns "source" [] sourceRows
    let target ← collectCompareRows columns keyColumns "target" [] targetRows
    .ok ⟨addedRows columns keyColumns source target, removedRows columns keyColumns source target,
      modifiedRows same columns keyColumns source target⟩

/-- The comparison with cells compared by their text. -/
def compareDataRows := compareDataRowsBy fun cell other => cell == other

/-! ## The statements -/

def isNonIdentityGeneratedColumn (column : Option DataGridColumnInfo) : Bool :=
  let extra := toAsciiLowercase ((column.bind (·.extra)).getD [])
  occursIn "generated always as".toList extra && !occursIn "identity".toList extra

def isWritable (columnInfo : List DataGridColumnInfo) (column : Str) : Bool :=
  !isNonIdentityGeneratedColumn (columnInfoFor columnInfo column)

def hasWritableChanges (row : ModifiedRow) (columnInfo : List DataGridColumnInfo) : Bool :=
  row.changes.any fun change => isWritable columnInfo change.column

/-- The equations of a `WHERE` clause by key. -/
abbrev KeyCondition := List (Str × Value)

inductive SyncStatement where
  | insertDefaultValues
  | insert (columns : List Str) (rows : List (List Value))
  | update (assignments : List (Str × Value)) (key : KeyCondition)
  /-- `SET column = CASE WHEN .. THEN .. ELSE column END, .. WHERE .. OR ..` -/
  | updateCases (assignments : List (Str × List (KeyCondition × Value)))
      (keys : List KeyCondition)
  | delete (keys : List KeyCondition)
  deriving DecidableEq

def whereByKey (keyColumns : List Str) (keyValues : ColumnMap) : KeyCondition :=
  keyColumns.map fun column => (column, (keyValues.get column).getD .null)

/-- `chunks`: pieces of `size` elements, the last one possibly shorter. -/
def chunksFrom {α : Type} (size : Nat) (current : List α) : List α → List (List α)
  | [] => if current.isEmpty then [] else [current]
  | a :: rest =>
    if current.length + 1 = size then (current ++ [a]) :: chunksFrom size [] rest
    else chunksFrom size (current ++ [a]) rest

def chunks {α : Type} (size : Nat) (list : List α) : List (List α) := chunksFrom size [] list

def dataSyncInsertBatchSize : Nat := 500

def dataSyncConditionBatchSize : Nat := 200

section Statements

variable (columns keyColumns : List Str) (columnInfo : List DataGridColumnInfo)

def generateInsertSyncStatements (added : List ComparedRow) : List SyncStatement :=
  let writableColumns := columns.filter (isWritable columnInfo)
  if writableColumns.isEmpty then added.map fun _ => .insertDefaultValues
  else (chunks dataSyncInsertBatchSize added).map fun chunk =>
    .insert writableColumns (chunk.map fun row =>
      writableColumns.map fun column => (row.values.get column).getD .null)

def generateSingleUpdateStatement (row : ModifiedRow) : SyncStatement :=
  .update ((row.changes.filter fun change => isWritable columnInfo change.column).map fun change =>
    (change.column, change.source)) (whereByKey keyColumns row.keyValues)

def updateChunk (chunk : List ModifiedRow) : List SyncStatement :=
  match chunk with
  | [row] => [generateSingleUpdateStatement keyColumns columnInfo row]
  | _ =>
    let changedColumns := (columns.filter (isWritable columnInfo)).filter fun column =>
      chunk.any fun row => row.changes.any fun change => change.column == column
    if changedColumns.isEmpty then []
    else
      let assignments := changedColumns.map fun column => (column, chunk.filterMap fun row =>
        (row.changes.find? fun change => change.column == column).map fun change =>
          (whereByKey keyColumns row.keyValues, change.source))
      [.updateCases assignments (chunk.map fun row => whereByKey keyColumns row.keyValues)]

def generateUpdateSyncStatements (modified : List ModifiedRow) : List SyncStatement :=
  (chunks dataSyncConditionBatchSize
    (modified.filter fun row => hasWritableChanges row columnInfo)).flatMap
    (updateChunk columns keyColumns columnInfo)

def generateDeleteSyncStatements (removed : List ComparedRow) : List SyncStatement :=
  (chunks dataSyncConditionBatchSize removed).map fun chunk =>
    .delete (chunk.map fun row => whereByKey keyColumns row.keyValues)

def generateDataSyncStatements (diff : CompareResult) : List SyncStatement :=
  generateInsertSyncStatements columns columnInfo diff.added
    ++ generateUpdateSyncStatements columns keyColumns columnInfo diff.modified
    ++ generateDeleteSyncStatements keyColumns diff.removed

end Statements

/-- How names and values are written: the quoted table, column names and literals. -/
structure Printer where
  table : Str
  quote : Str → Str
  literal : Value → Option DataGridColumnInfo → Str

namespace Printer

variable (printer : Printer) (columnInfo : List DataGridColumnInfo)

def value (column : Str) (v : Value) : Str :=
  printer.literal v (columnInfoFor columnInfo column)

def condition (key : KeyCondition) : Str :=
  joinWith " AND ".toList (key.map fun (column, v) =>
    printer.quote column ++ " = ".toList ++ printer.value columnInfo column v)

/-- One condition is written as it is, several are bracketed. -/
def conditions (keys : List KeyCondition) : Str :=
  match keys with
  | [key] => printer.condition columnInfo key
  | _ => joinWith " OR ".toList (keys.map fun key =>
      "(".toList ++ printer.condition columnInfo key ++ ")".toList)

def caseAssignment (column : Str) (cases : List (KeyCondition × Value)) : Str :=
  printer.quote column ++ " = CASE ".toList
    ++ joinWith " ".toList (cases.map fun (key, v) => "WHEN ".toList
      ++ printer.condition columnInfo key ++ " THEN ".toList ++ printer.value columnInfo column v)
    ++ " ELSE ".toList ++ printer.quote column ++ " END".toList

def statement : SyncStatement → Str
  | .insertDefaultValues => "INSERT INTO ".toList ++ printer.table ++ " DEFAULT VALUES;".toList
  | .insert columns rows =>
    "INSERT INTO ".toList ++ printer.table ++ " (".toList
      ++ joinWith ", ".toList (columns.map printer.quote) ++ ") VALUES ".toList
      ++ joinWith ", ".toList (rows.map fun row => "(".toList
        ++ joinWith ", ".toList (List.zipWith (printer.value columnInfo) columns row)
        ++ ")".toList) ++ ";".toList
  | .update assignments key =>
    "UPDATE ".toList ++ printer.table ++ " SET ".toList
      ++ joinWith ", ".toList (assignments.map fun (column, v) =>
        printer.quote column ++ " = ".toList ++ printer.value columnInfo column v)
      ++ " WHERE ".toList ++ printer.condition columnInfo key ++ ";".toList
  | .updateCases assignments keys =>
    "UPDATE ".toList ++ printer.table ++ " SET ".toList
      ++ joinWith ", ".toList (assignments.map fun (column, cases) =>
        printer.caseAssignment columnInfo column cases)
      ++ " WHERE ".toList ++ printer.conditions columnInfo keys ++ ";".toList
  | .delete keys =>
    "DELETE FROM ".toList ++ printer.table ++ " WHERE ".toList
      ++ printer.conditions columnInfo keys ++ ";".toList

end Printer

structure Preparation where
  result : CompareResult
  /-- The statements that `syncStatements` are the texts of. -/
  plan : List SyncStatement
  syncStatements : List Str
  syncSql : Str

def prepareDataCompare (printer : Printer) (columns keyColumns : List Str)
    (columnInfo : List DataGridColumnInfo) (sourceRows targetRows : List FetchedRow) :
    Except Str Preparation := do
  let result ← compareDataRows columns keyColumns sourceRows targetRows
  let plan := generateDataSyncStatements columns keyColumns columnInfo result
  let syncStatements := plan.map (printer.statement columnInfo)
  .ok ⟨result, plan, syncStatements, joinWith ['\n'] syncStatements⟩

/-! ## Reading the tables -/

/-- A row of a table. -/
abbrev TableRow := Str → Value

def keyOf (keyColumns : List Str) (row : TableRow) : List Value := keyColumns.map row

inductive TablePaginationStrategy where
  | limitOffset | fetchFirst | db2FetchFirst | sqlServerTop | irisTop | informixFirst
  | firebirdRows | rownum | questDbLimit | unbounded | agentMaxRows
  deriving DecidableEq, Repr

/-- `pagination_strategy` in the context `BoundedRead`. -/
def boundedReadStrategy : DatabaseType → TablePaginationStrategy
  | .jdbc => .agentMaxRows
  | .oracle | .oscar | .oceanbaseOracle => .rownum
  | .dameng => .fetchFirst
  | .db2 => .db2FetchFirst
  | .sqlServer => .sqlServerTop
  | .iris => .irisTop
  | .informix => .informixFirst
  | .firebird => .firebirdRows
  | .questdb => .questDbLimit
  | _ => .limitOffset

/-- The bounds that a page query puts on the rows in key order. -/
structure PageQuery where
  limit : Option Nat
  offset : Nat

/-- `build_data_compare_select_sql`, as the bounds its text has in each dialect. -/
def pageQuery (strategy : TablePaginationStrategy) (rowLimit offset : Nat) : PageQuery :=
  match strategy with
  | .irisTop => ⟨some rowLimit, 0⟩
  | .agentMaxRows | .unbounded => ⟨none, 0⟩
  | .limitOffset | .fetchFirst | .db2FetchFirst | .sqlServerTop | .informixFirst
  | .firebirdRows | .rownum | .questDbLimit => ⟨some rowLimit, offset⟩

def PageQuery.answer {α : Type} (query : PageQuery) (ordered : List α) : List α :=
  match query.limit with
  | some limit => (ordered.drop query.offset).take limit
  | none => ordered.drop query.offset

/-- How the text of a page query bounds the rows. -/
inductive PageClause where
  /-- `LIMIT`, `TOP`, `FIRST`, `FETCH FIRST`, `ROWS n` or `ROWNUM <=`, with what is skipped. -/
  | first (skipped limit : Nat)
  /-- The rows whose number is above `after` and at most `upTo`. -/
  | numbered (after upTo : Nat)
  /-- Firebird's `ROWS start TO last`. -/
  | rowsTo (start last : Nat)
  /-- QuestDB's `LIMIT lower, upper`. -/
  | between (lower upper : Nat)
  | all
  deriving DecidableEq, Repr

/-- The bounds in the text of `build_data_compare_select_sql`. -/
def pageClause (strategy : TablePaginationStrategy) (rowLimit offset : Nat) : PageClause :=
  match strategy with
  | .db2FetchFirst | .fetchFirst | .informixFirst | .limitOffset => .first offset rowLimit
  | .rownum | .sqlServerTop =>
    if offset = 0 then .first 0 rowLimit else .numbered offset (offset + rowLimit)
  | .irisTop => .first 0 rowLimit
  | .firebirdRows =>
    if offset > 0 then .rowsTo (offset + 1) (offset + rowLimit) else .first 0 rowLimit
  | .questDbLimit => if offset > 0 then .between offset (offset + rowLimit) else .first 0 rowLimit
  | .agentMaxRows | .unbounded => .all

/-- The rows with their numbers, counted from one. -/
def numberedRows {α : Type} (rows : List α) (keep : Nat → Bool) : List α :=
  ((rows.zipIdx 1).filter fun row => keep row.2).map (·.1)

def PageClause.answer {α : Type} (ordered : List α) : PageClause → List α
  | first skipped limit => (ordered.drop skipped).take limit
  | numbered after upTo => numberedRows ordered fun n => after < n && n ≤ upTo
  | rowsTo start last => numberedRows ordered fun n => start ≤ n && n ≤ last
  | between lower upper => (ordered.take upper).drop lower
  | all => ordered

inductive SamplingStrategy where
  | random | extremeValues | hybrid
  deriving DecidableEq, Repr

/-- A part of a sampling query: rows drawn at random, or the first or last ones by key, or
any rows where the query has no order. -/
inductive SamplePart where
  | random (count : Nat)
  | head (count : Nat)
  | tail (count : Nat)
  | unordered (count : Nat)
  deriving DecidableEq, Repr

/-- The database types with a random order or `TABLESAMPLE` of their own. -/
def drawsAtRandom : DatabaseType → Bool
  | .postgres | .redshift | .duckDb | .databricks | .sqlServer | .mysql | .doris | .starRocks
  | .goldendb | .sqlite | .rqlite | .turso | .clickHouse | .oracle | .oceanbaseOracle | .dameng
  | .iris | .questdb | .informix => true
  | _ => false

/-- `build_sampling_select_sql`, as the parts that its `UNION ALL` joins. -/
def samplingParts (databaseType : DatabaseType) (keyColumns : List Str)
    (strategy : SamplingStrategy) (sampleSize : Nat) : List SamplePart :=
  match strategy with
  | .random =>
    if drawsAtRandom databaseType then [.random sampleSize]
    else if keyColumns.isEmpty then [.unordered sampleSize]
    else [.head sampleSize]
  | .extremeValues =>
    if keyColumns.isEmpty then [.unordered sampleSize]
    else
      let headCount := sampleSize / 2
      [.head headCount, .tail (sampleSize - headCount)]
  | .hybrid =>
    if keyColumns.isEmpty then [.unordered sampleSize]
    else
      let randomCount := sampleSize / 2
      let headCount := (sampleSize - randomCount) / 2
      let randomPart :=
        if drawsAtRandom databaseType then SamplePart.random randomCount
        else .unordered randomCount
      [randomPart, .head headCount, .tail (sampleSize - randomCount - headCount)]

/-- What a database may return for a part, from the rows in key order. -/
def SamplePart.MayReturn (part : SamplePart) (ordered rows : List TableRow) : Prop :=
  match part with
  | .head count => rows = ordered.take count
  | .tail count => rows = ordered.reverse.take count
  | .random count | .unordered count => rows.length ≤ count ∧ rows.Subperm ordered

/-- What a database may return for a sampling query. -/
structure Sample (parts : List SamplePart) (ordered : List TableRow) where
  rows : List TableRow
  possible : ∃ pieces, List.Forall₂ (fun part => part.MayReturn ordered) parts pieces ∧
    rows.Perm pieces.flatten

def parseDigits (text : Str) : Option Nat :=
  if text ≠ [] ∧ text.all Char.isDigit then
    some (text.foldl (fun n c => n * 10 + (c.toNat - 48)) 0)
  else none

/-- A `u64`: digits that do not overflow. -/
def parseU64 (text : Str) : Option Nat := (parseDigits text).filter (· < 2 ^ 64)

def firstCount (rows : List FetchedRow) : Except Str Nat :=
  match rows.head?.bind List.head? with
  | none => .error "COUNT query returned no rows".toList
  | some value =>
    let count := match value with
      | .number n => parseU64 n.text
      -- `u64::from_str` takes a leading plus sign
      | .string ('+' :: digits) => parseU64 digits
      | .string text => parseU64 text
      | _ => none
    match count with
    | some count => .ok count
    | none => .error ("COUNT query returned non-numeric value: ".toList ++ value.jsonStringify)

/-- One side of a comparison: a connection and its table, with distinct non-null keys. -/
structure Side (keyColumns : List Str) where
  databaseType : DatabaseType
  columns : List Str
  /-- The rows in the order of the key columns. -/
  rows : List TableRow
  distinct : (rows.map (keyOf keyColumns)).Nodup
  nonNull : ∀ row ∈ rows, ∀ column ∈ keyColumns, row column ≠ .null
  /-- The answer to the `COUNT` query. -/
  countRows : List FetchedRow
  counted : firstCount countRows = .ok rows.length

/-- The columns that a query selects from a row. -/
def Side.select {keyColumns : List Str} (side : Side keyColumns) (columns : List Str)
    (row : TableRow) : FetchedRow :=
  if columns.isEmpty then side.columns.map row else columns.map row

/-- The loop of `fetch_compare_rows` from an offset, for at most `fuel` pages; `none` if it is
not done by then. -/
def fetchPages (page : Nat → List FetchedRow) (fetchBatchSize : Nat) :
    Nat → Nat → Option (List FetchedRow)
  | 0, _ => none
  | fuel + 1, offset =>
    let rows := page offset
    if rows.length = 0 then some []
    else if rows.length < fetchBatchSize then some rows
    else (fetchPages page fetchBatchSize fuel (offset + rows.length)).map (rows ++ ·)

def fetchCompareRows {keyColumns : List Str} (side : Side keyColumns) (columns : List Str)
    (fetchBatchSize fuel : Nat) : Option (List FetchedRow) :=
  let strategy := boundedReadStrategy side.databaseType
  fetchPages (fun offset => (((pageQuery strategy fetchBatchSize offset).answer side.rows).take
    fetchBatchSize).map (side.select columns)) fetchBatchSize fuel 0

structure DegradationThreshold where
  fullCompareMaxRows : Nat := 100000
  sampleMaxRows : Nat := 10000000
  sampleSize : Nat := 10000

inductive DegradationLevel where
  | full | sample | skipWithRisk
  deriving DecidableEq, Repr

def DegradationLevel.display : DegradationLevel → String
  | full => "full"
  | sample => "sample"
  | skipWithRisk => "skip_with_risk"

def shouldDegrade (sourceRowCount targetRowCount : Nat) (threshold : DegradationThreshold) :
    DegradationLevel :=
  let maxCount := max sourceRowCount targetRowCount
  if maxCount ≤ threshold.fullCompareMaxRows then .full
  else if maxCount ≤ threshold.sampleMaxRows then .sample
  else .skipWithRisk

structure FromTablesOptions where
  columns : List Str
  keyColumns : List Str
  fetchBatchSize : Option Nat
  degradationThreshold : Option DegradationThreshold
  samplingStrategy : Option SamplingStrategy

namespace FromTablesOptions

variable (options : FromTablesOptions)

def batchSize : Nat := max (options.fetchBatchSize.getD 1000) 1

def threshold : DegradationThreshold := options.degradationThreshold.getD {}

def strategy : SamplingStrategy := options.samplingStrategy.getD .hybrid

/-- What the sampling query of a side may return. -/
abbrev SampleOf (side : Side options.keyColumns) : Type :=
  Sample (samplingParts side.databaseType options.keyColumns options.strategy
    options.threshold.sampleSize) side.rows

end FromTablesOptions

def fetchSampledCompareRows (options : FromTablesOptions) (side : Side options.keyColumns)
    (sample : options.SampleOf side) : List FetchedRow :=
  let sampleSize := options.threshold.sampleSize
  if sampleSize = 0 then []
  else (sample.rows.take sampleSize).map (side.select options.columns)

structure FromTablesPreparation extends Preparation where
  sourceRowCount : Nat
  targetRowCount : Nat
  degradationLevel : String
  verificationMethod : String

section FromTables

variable (options : FromTablesOptions) (source target : Side options.keyColumns)

/-- The rows that the comparison gets at a degradation level. -/
def rowsToCompare (sourceSample : options.SampleOf source) (targetSample : options.SampleOf target)
    (fuel : Nat) : DegradationLevel → Option (List FetchedRow × List FetchedRow × String)
  | .full =>
    (fetchCompareRows source options.columns options.batchSize fuel).bind fun sourceRows =>
    (fetchCompareRows target options.columns options.batchSize fuel).map fun targetRows =>
    (sourceRows, targetRows, "full_compare")
  | .sample =>
    some (fetchSampledCompareRows options source sourceSample,
      fetchSampledCompareRows options target targetSample, "sampled")
  | .skipWithRisk => some ([], [], "skipped")

/-- The result, if each of the two fetch loops is done within `fuel` pages. -/
def prepareDataCompareFromTables (printer : Printer) (columnInfo : List DataGridColumnInfo)
    (sourceSample : options.SampleOf source) (targetSample : options.SampleOf target)
    (fuel : Nat) : Option (Except Str FromTablesPreparation) :=
  match firstCount source.countRows, firstCount target.countRows with
  | .ok sourceRowCount, .ok targetRowCount =>
    let level := shouldDegrade sourceRowCount targetRowCount options.threshold
    (rowsToCompare options source target sourceSample targetSample fuel level).map
      fun (sourceRows, targetRows, method) => do
        let preparation ← prepareDataCompare printer options.columns options.keyColumns columnInfo
          sourceRows targetRows
        .ok { preparation with
          sourceRowCount, targetRowCount, degradationLevel := level.display,
          verificationMethod := method }
  | .error e, _ => some (.error e)
  | _, .error e => some (.error e)

end FromTables

end Dbx.Source.DataCompare
