import Dbx.Source.Cells
import Dbx.Source.DatabaseType
import Mathlib.Data.List.Basic

/-!
# Saving the edits of a data grid

Model of the relational part of `data_grid_sql.rs`: the columns that a save writes
(1758-1789, 2955-3030), the literals it saves (2174-2192), the predicates
(2688-2835), the statements of a save and of its rollback (1276-1756), and the
validation before them (1064-1274). Neo4j, TDengine and the table model of IoTDB have
builders of their own, which are not part of it.

The statements are kept as records; `GridText.statement` gives the text. What the text
is made of and what has its own analysis elsewhere is a parameter (`GridText`): the
quoted identifiers, the qualified table name and `format_grid_assignment_sql_literal`.
-/
namespace Dbx.Source.DataGrid

open Dbx.Lib.Text

structure DataGridTableMeta where
  primaryKeys : List Str
  columns : Option (List DataGridColumnInfo)

/-- A row's changes: column positions with their new values. -/
abbrev Changes := List (Nat × Value)

structure DataGridSaveStatementOptions where
  databaseType : Option DatabaseType
  tableMeta : DataGridTableMeta
  columns : List Str
  sourceColumns : Option (List (Option Str))
  rows : List (List Value)
  dirtyRows : List (Nat × Changes)
  deletedRows : List Nat
  newRows : List (List Value)

structure GridText where
  identifier : Str → Str
  table : Str
  literal : Value → Option DataGridColumnInfo → Str
  /-- The first case of `format_grid_sql_literal`. -/
  literal_null : ∀ info, literal .null info = "NULL".toList

/-! ## Columns -/

def normalizeColumnName (name : Str) : Str := toAsciiUppercase name

/-- The first word of a column type, at the given separators. -/
def baseType (separators : List Char) (dataType : Str) : Str :=
  dataType.takeWhile fun c => !separators.contains c

def isTextualColumnType (dataType : Str) : Bool :=
  let lower := toAsciiLowercase (trim dataType)
  let base := trim (baseType ['(', ':', ' '] lower)
  ["char", "character", "varchar", "varchar2", "nvarchar", "nvarchar2", "nchar", "string", "text",
      "tinytext", "mediumtext", "longtext", "ntext", "clob", "nclob", "enum", "set"].any
      (base == ·.toList) ||
    "character varying".toList.isPrefixOf lower ||
    "national character varying".toList.isPrefixOf lower

def usesOracleRowId (databaseType : Option DatabaseType) : Bool :=
  databaseType == some .oracle || databaseType == some .oceanbaseOracle

def isOracleRowId (databaseType : Option DatabaseType) (name : Str) : Bool :=
  usesOracleRowId databaseType && eqIgnoreAsciiCase name "__DBX_ROWID".toList

/-- The words of the column's extra text. -/
def extraWords (text : Str) : List Str := wordsBy (fun ch => ch.isAlphanum || ch == '_') text

def isAutoGeneratedColumn (column : DataGridColumnInfo) : Bool :=
  (extraWords (toAsciiLowercase (column.extra.getD []))).any fun part =>
    ["auto_increment", "autoincrement", "identity"].any (part == ·.toList)

def isNonIdentityGeneratedColumn (columnInfo : Option DataGridColumnInfo) : Bool :=
  let extra := toAsciiLowercase ((columnInfo.bind (·.extra)).getD [])
  ["generated always as", "virtual generated", "stored generated"].any
      (fun phrase => occursIn phrase.toList extra) &&
    !occursIn "identity".toList extra

def trimQuotes (text : Str) : Str := (text.dropWhile (· == '"')).rdropWhile (· == '"')

def isPostgresTsvectorType (dataType : Str) : Bool :=
  let normalized := toAsciiLowercase (trimQuotes (trim dataType))
  normalized == "tsvector".toList || ".tsvector".toList.isSuffixOf normalized

section

variable (databaseType : Option DatabaseType) (columnInfo : Option DataGridColumnInfo)

def isPostgresTsvectorColumn : Bool :=
  databaseType == some .postgres && columnInfo.any fun column =>
    isPostgresTsvectorType column.dataType

def isClickhousePartitionKeyColumn : Bool :=
  databaseType == some .clickHouse && (columnInfo.bind (·.extra)).any fun extra =>
    (extraWords extra).any (· == "partition_key".toList)

def isClickhouseKeyColumn (name : Str) (primaryKeySet : List Str) : Bool :=
  databaseType == some .clickHouse &&
    (columnInfo.any (·.isPrimaryKey) || isClickhousePartitionKeyColumn databaseType columnInfo ||
      primaryKeySet.contains (normalizeColumnName name))

def isGridInsertOmittedColumn (name : Str) (includeComputedColumns : Bool) : Bool :=
  isOracleRowId databaseType name || isPostgresTsvectorColumn databaseType columnInfo ||
    !includeComputedColumns && isNonIdentityGeneratedColumn columnInfo

def isGridUpdateOmittedColumn (name : Str) (primaryKeySet : List Str) : Bool :=
  isOracleRowId databaseType name ||
    isClickhouseKeyColumn databaseType columnInfo name primaryKeySet ||
    isNonIdentityGeneratedColumn columnInfo

end

/-- The databases whose result metadata may change the case of a column's name. -/
def driftsInCase : Option DatabaseType → Bool
  | some .goldendb | some .kingbase | some .tdengine | some .hive => true
  | _ => false

def findColumnIndex (databaseType : Option DatabaseType) (columns : List (Option Str))
    (target : Str) : Option Nat :=
  match columns.findIdx? (· == some target) with
  | some index => some index
  | none =>
    if !driftsInCase databaseType then none
    else
      let isMatch := fun column : Option Str =>
        (column.map normalizeColumnName).getD [] == normalizeColumnName target
      -- A match up to case counts only if it is the only one.
      if (columns.filter isMatch).length == 1 then columns.findIdx? isMatch else none

/-! ### Hive result labels -/

def uniqueColumnInfoMatch (columns : List DataGridColumnInfo) (name : Str) :
    Option DataGridColumnInfo :=
  match columns.find? (·.name == name) with
  | some column => some column
  | none =>
    match columns.filter fun column =>
        normalizeColumnName column.name == normalizeColumnName name with
    | [column] => some column
    | _ => none

/-- The component after the last dot outside quotes. `doubled` skips the second quote of a
doubled one, `seen` tells whether there was a dot. -/
def lastComponent (quote : Option Char) (doubled seen : Bool) (current : Str) : Str → Option Str
  | [] => if quote.isSome || !seen then none else some current
  | ch :: rest =>
    if doubled then lastComponent quote false seen (current ++ [ch]) rest
    else match quote with
      | some close =>
        if ch == close then
          if rest.head? == some close then lastComponent quote true seen (current ++ [ch]) rest
          else lastComponent none false seen (current ++ [ch]) rest
        else lastComponent quote false seen (current ++ [ch]) rest
      | none =>
        if ch == '\x60' || ch == '"' then lastComponent (some ch) false seen (current ++ [ch]) rest
        else if ch == '[' then lastComponent (some ']') false seen (current ++ [ch]) rest
        else if ch == '.' then
          if (trim current).isEmpty then none else lastComponent none false true [] rest
        else lastComponent none false seen (current ++ [ch]) rest

def undouble (c : Char) : Str → Str
  | a :: b :: rest =>
    if a == c && b == c then c :: undouble c rest else a :: undouble c (b :: rest)
  | text => text

def unquoteIdentifierComponent (component : Str) : Option Str :=
  if component.isEmpty then none
  else match [('\x60', '\x60'), ('"', '"'), ('[', ']')].find? fun pair =>
      component.head? == some pair.1 || component.getLast? == some pair.2 with
    | some (opening, closing) =>
      if component.head? == some opening && component.tail.getLast? == some closing then
        some (undouble closing component.tail.dropLast)
      else none
    | none => some component

def resolveHiveTargetColumn (tableMeta : DataGridTableMeta) (resultColumn : Str) : Str :=
  match tableMeta.columns with
  | none => resultColumn
  | some columns =>
    match uniqueColumnInfoMatch columns resultColumn with
    | some column => column.name
    | none =>
      let target := do
        let last ← lastComponent none false false [] resultColumn
        let unqualified ← unquoteIdentifierComponent (trim last)
        uniqueColumnInfoMatch columns unqualified
      (target.map (·.name)).getD resultColumn

namespace DataGridSaveStatementOptions

variable (options : DataGridSaveStatementOptions)

def columnInfo : List DataGridColumnInfo := options.tableMeta.columns.getD []

def info (column : Str) : Option DataGridColumnInfo := columnInfoFor options.columnInfo column

/-- The table column behind each column of the result, if any. -/
def effectiveColumns : List (Option Str) :=
  let columns := match options.sourceColumns with
    | some sourceColumns =>
      if sourceColumns.length == options.columns.length then sourceColumns
      else options.columns.map some
    | none => options.columns.map some
  if options.databaseType != some .hive then columns
  else columns.map (·.map (resolveHiveTargetColumn options.tableMeta))

def columnAt (index : Nat) : Option Str := (options.effectiveColumns[index]?).join

def primaryKeySet : List Str := options.tableMeta.primaryKeys.map normalizeColumnName

/-- The database is saved by the builder that this module models. -/
def usesRelationalSave : Bool :=
  options.databaseType != some .neo4j && options.databaseType != some .tdengine &&
    !(options.databaseType == some .iotdb && !options.tableMeta.primaryKeys.isEmpty)

end DataGridSaveStatementOptions

/-! ## Literals and predicates -/

def emptyStringSavesAsNull (value : Value) (columnInfo : Option DataGridColumnInfo) : Bool :=
  value == .string [] && columnInfo.any fun column =>
    column.isNullable && !isTextualColumnType column.dataType

def gridValueIsEmpty (value : Value) : Bool := value == .null || value == .string []

def isString : Value → Bool
  | .string _ => true
  | _ => false

/-- How a comparison is written; every form compares the column with the literal. -/
inductive ComparisonForm where
  | plain | binary | jsonText | jsonb
  deriving DecidableEq, Repr

/-- A column compared with a literal, or tested for NULL (`none`). -/
structure Comparison where
  column : Str
  literal : Option Str
  form : ComparisonForm := .plain
  deriving DecidableEq, Repr

structure Assignment where
  column : Str
  literal : Str
  deriving DecidableEq, Repr

/-- Comparisons joined by AND. -/
abbrev Conjunction := List Comparison

inductive GridStatement where
  /-- The conjunctions are joined by OR. -/
  | update (sets : List Assignment) (conditions : List Conjunction)
  | delete (conditions : List Conjunction)
  | insert (columns : List Str) (tuples : List (List Str))
  /-- `INSERT INTO TABLE … VALUES` of Hive, which lists a value for every column. -/
  | insertAll (columns : List Str) (literals : List Str)
  deriving DecidableEq, Repr

def usesMysqlBinaryTextPredicate (databaseType : Option DatabaseType) (value : Value)
    (columnInfo : Option DataGridColumnInfo) : Bool :=
  databaseType == some .mysql && isString value && columnInfo.any fun column =>
    isTextualColumnType column.dataType

def isPostgresLikePatternDatabase (databaseType : Option DatabaseType) : Bool :=
  databaseType.any DatabaseType.isPostgresqlFamily

/-- The form in which `postgres_keyless_json_predicate` compares a JSON column. -/
def postgresKeylessJsonForm (databaseType : Option DatabaseType)
    (columnInfo : Option DataGridColumnInfo) : Option ComparisonForm :=
  if !isPostgresLikePatternDatabase databaseType then none
  else columnInfo.bind fun column =>
    let normalized := toAsciiLowercase (trim column.dataType)
    let dataType := trimQuotes (normalized.rtakeWhile (· != '.'))
    if dataType == "json".toList then some .jsonText
    else if dataType == "jsonb".toList then some .jsonb
    else none

def mysqlJsonPredicateLiteral (literal : Str) (databaseType : Option DatabaseType)
    (columnInfo : Option DataGridColumnInfo) : Str :=
  if databaseType == some .mysql && columnInfo.any fun column =>
      eqIgnoreAsciiCase (trim column.dataType) "json".toList then
    "CAST(".toList ++ literal ++ " AS JSON)".toList
  else literal

/-- The shape of `build_column_predicate` and `build_save_column_predicate`, which differ in
what they take for NULL and in the literal. -/
def columnPredicate (databaseType : Option DatabaseType) (isNull : Bool) (literal column : Str)
    (value : Value) (columnInfo : Option DataGridColumnInfo) (useBinaryTextComparison : Bool) :
    Comparison :=
  if isNull then { column, literal := none }
  else if useBinaryTextComparison && usesMysqlBinaryTextPredicate databaseType value columnInfo then
    { column, literal := some literal, form := .binary }
  else
    let jsonForm :=
      if useBinaryTextComparison then postgresKeylessJsonForm databaseType columnInfo else none
    match jsonForm with
    | some form => { column, literal := some literal, form }
    | none =>
      { column, literal := some (mysqlJsonPredicateLiteral literal databaseType columnInfo) }

/-- The rows of `MYSQL_DATA_GRID_BATCH_MAX_ROWS` and the bytes of a batch. -/
def batchMaxRows : Nat := 500

def batchTargetSqlBytes : Nat := 256 * 1024

/-- `str::len`. -/
def byteLength (text : Str) : Nat := (text.map Char.utf8Size).sum

def joinedBatchSqlLen (start separator : Str) (wrapMultipleParts : Bool) (current : List Str)
    (next : Str) : Nat :=
  let partBytes := fun part => byteLength part + if wrapMultipleParts then 2 else 0
  if current.isEmpty then byteLength start + byteLength next + 1
  else
    let single := current.length == 1 && wrapMultipleParts
    let currentBytes :=
      if single then byteLength (current.headD [])
      else (current.map partBytes).sum + byteLength separator * (current.length - 1)
    byteLength start + currentBytes + (if single then 2 else 0) + byteLength separator +
      partBytes next + 1

/-- The loop of `push_mysql_joined_batches`: the parts of each statement. -/
def joinedBatches {α : Type} (text : α → Str) (start separator : Str) (wrapMultipleParts : Bool)
    (batch : List α) : List α → List (List α)
  | [] => if batch.isEmpty then [] else [batch]
  | part :: parts =>
    let nextLen := joinedBatchSqlLen start separator wrapMultipleParts (batch.map text) (text part)
    if !batch.isEmpty && (batch.length ≥ batchMaxRows || nextLen > batchTargetSqlBytes) then
      batch :: joinedBatches text start separator wrapMultipleParts [part] parts
    else joinedBatches text start separator wrapMultipleParts (batch ++ [part]) parts

/-- The loops that collect consecutive parts while their text stays the same; the text of the
last part of a group stands for all of them. -/
def groupConsecutive {α β : Type} (text : α → Str) (current : Option α) (group : List β) :
    List (α × β) → List (α × List β)
  | [] => match current with
    | some shared => [(shared, group)]
    | none => []
  | (shared, part) :: rest =>
    match current with
    | none => groupConsecutive text (some shared) (group ++ [part]) rest
    | some before =>
      if text before != text shared then
        (before, group) :: groupConsecutive text (some shared) [part] rest
      else groupConsecutive text (some shared) (group ++ [part]) rest

namespace GridText

variable (texts : GridText)

def predicateIdent (databaseType : Option DatabaseType) (name : Str) : Str :=
  if isOracleRowId databaseType name then "ROWIDTOCHAR(ROWID)".toList else texts.identifier name

def comparison (databaseType : Option DatabaseType) (c : Comparison) : Str :=
  let ident := texts.predicateIdent databaseType c.column
  match c.literal with
  | none => ident ++ " IS NULL".toList
  | some literal => match c.form with
    | .plain => ident ++ " = ".toList ++ literal
    | .binary => "BINARY ".toList ++ ident ++ " = ".toList ++ literal
    | .jsonText => ident ++ "::text = ".toList ++ literal ++ "::text".toList
    | .jsonb => ident ++ " = ".toList ++ literal ++ "::jsonb".toList

def conjunction (databaseType : Option DatabaseType) (conditions : Conjunction) : Str :=
  joinWith " AND ".toList (conditions.map (texts.comparison databaseType))

def sets (assignments : List Assignment) : Str :=
  joinWith ", ".toList (assignments.map fun a => texts.identifier a.column ++ " = ".toList ++ a.literal)

def columnList (columns : List Str) : Str := joinWith ", ".toList (columns.map texts.identifier)

def tuple (literals : List Str) : Str :=
  '(' :: joinWith ", ".toList literals ++ [')']

/-- One conjunction stands alone, several are wrapped and joined. -/
def disjunction (databaseType : Option DatabaseType) : List Conjunction → Str
  | [single] => texts.conjunction databaseType single
  | conditions => joinWith " OR ".toList (conditions.map fun c =>
      '(' :: texts.conjunction databaseType c ++ [')'])

def updateHead (assignments : List Assignment) : Str :=
  "UPDATE ".toList ++ texts.table ++ " SET ".toList ++ texts.sets assignments ++ " WHERE ".toList

def deleteHead : Str := "DELETE FROM ".toList ++ texts.table ++ " WHERE ".toList

def insertHead (columns : List Str) : Str :=
  "INSERT INTO ".toList ++ texts.table ++ " (".toList ++ texts.columnList columns ++
    ") VALUES ".toList

def statementBody (databaseType : Option DatabaseType) : GridStatement → Str
  | .update assignments conditions =>
    if databaseType == some .clickHouse then
      "ALTER TABLE ".toList ++ texts.table ++ " UPDATE ".toList ++ texts.sets assignments ++
        " WHERE ".toList ++ texts.disjunction databaseType conditions
    else texts.updateHead assignments ++ texts.disjunction databaseType conditions
  | .delete conditions =>
    if databaseType == some .clickHouse then
      "ALTER TABLE ".toList ++ texts.table ++ " DELETE WHERE ".toList ++
        texts.disjunction databaseType conditions
    else texts.deleteHead ++ texts.disjunction databaseType conditions
  | .insert columns tuples =>
    texts.insertHead columns ++ joinWith ", ".toList (tuples.map tuple)
  | .insertAll _ literals =>
    "INSERT INTO TABLE ".toList ++ texts.table ++ " VALUES ".toList ++ tuple literals

def statement (databaseType : Option DatabaseType) (s : GridStatement) : Str :=
  texts.statementBody databaseType s ++
    if databaseType == some .manticoreSearch then [] else [';']

def formatGridSaveSqlLiteral (value : Value) (columnInfo : Option DataGridColumnInfo) : Str :=
  if emptyStringSavesAsNull value columnInfo then "NULL".toList else texts.literal value columnInfo

def buildColumnPredicate (databaseType : Option DatabaseType) (column : Str) (value : Value)
    (columnInfo : Option DataGridColumnInfo) (useBinaryTextComparison : Bool) : Comparison :=
  columnPredicate databaseType (value == .null) (texts.literal value columnInfo) column value
    columnInfo useBinaryTextComparison

def buildSaveColumnPredicate (databaseType : Option DatabaseType) (column : Str) (value : Value)
    (columnInfo : Option DataGridColumnInfo) (useBinaryTextComparison : Bool) : Comparison :=
  columnPredicate databaseType (value == .null || emptyStringSavesAsNull value columnInfo)
    (texts.formatGridSaveSqlLiteral value columnInfo) column value columnInfo
    useBinaryTextComparison

end GridText

def usesKeylessRowPredicate : Option DatabaseType → Bool
  | some .mysql | some .manticoreSearch | some .postgres | some .sqlite | some .rqlite
  | some .turso | some .cloudflareD1 | some .duckDb | some .sqlServer | some .oracle | some .doris
  | some .starRocks | some .redshift | some .dameng | some .gaussdb | some .kwdb | some .kingbase
  | some .highgo | some .uxdb | some .vastbase | some .goldendb | some .yashandb | some .oscar
  | some .databricks | some .sapHana | some .teradata | some .vertica | some .firebird
  | some .exasol | some .openGauss | some .questdb | some .oceanbaseOracle | some .gbase
  | some .access | some .h2 | some .snowflake | some .db2 | some .informix | some .bigquery
  | some .sundb | some .databend | some .hive | some .iris => true
  | _ => false

namespace DataGridSaveStatementOptions

variable (options : DataGridSaveStatementOptions) (texts : GridText)

/-! ## Conditions on rows -/

/-- The mapped columns with the row's values. -/
def mappedCells (row : List Value) : List (Str × Value) :=
  options.effectiveColumns.zipIdx.filterMap fun (column, index) =>
    column.map fun column => (column, row.getD index .null)

def rowConditions (predicate : Str → Value → Option DataGridColumnInfo → Bool → Comparison)
    (row : List Value) : Conjunction :=
  ((options.mappedCells row).filter fun cell => !isOracleRowId options.databaseType cell.1).map
    fun cell => predicate cell.1 cell.2 (options.info cell.1) true

def buildRowWhere (row : List Value) : Conjunction :=
  options.rowConditions (texts.buildColumnPredicate options.databaseType) row

def buildSaveRowWhere (row : List Value) : Conjunction :=
  options.rowConditions (texts.buildSaveColumnPredicate options.databaseType) row

/-- The row's value of a table column, by the column's position in the result. -/
def valueOf (row : List Value) (column : Str) : Value :=
  match findColumnIndex options.databaseType options.effectiveColumns column with
  | some index => row.getD index .null
  | none => .null

def buildPrimaryKeyWhere (row : List Value) : Conjunction :=
  if options.tableMeta.primaryKeys.isEmpty && usesKeylessRowPredicate options.databaseType then
    options.buildRowWhere texts row
  else options.tableMeta.primaryKeys.map fun primaryKey =>
    texts.buildColumnPredicate options.databaseType primaryKey (options.valueOf row primaryKey)
      (options.info primaryKey) false

/-! ## The statements of a save -/

def supportsMysqlDataGridBatch : Bool :=
  options.databaseType == some .mysql && !options.tableMeta.primaryKeys.isEmpty

/-- The changes that are written, with their table columns. -/
def writableChanges (primaryKeySet : List Str) (changes : Changes) : List (Str × Nat × Value) :=
  changes.filterMap fun (index, value) =>
    match options.columnAt index with
    | some column =>
      if isGridUpdateOmittedColumn options.databaseType (options.info column) column
          primaryKeySet then none
      else some (column, index, value)
    | none => none

def updateSets (changes : Changes) : List Assignment :=
  (options.writableChanges options.primaryKeySet changes).map fun (column, _, value) =>
    ⟨column, texts.formatGridSaveSqlLiteral value (options.info column)⟩

/-- The SET list and the condition of each dirty row that has something to write. -/
def updates : List (List Assignment × Conjunction) :=
  options.dirtyRows.filterMap fun (rowIndex, changes) =>
    match options.rows[rowIndex]? with
    | some row =>
      if (options.updateSets texts changes).isEmpty then none
      else some (options.updateSets texts changes, options.buildPrimaryKeyWhere texts row)
    | none => none

def deletes : List Conjunction :=
  options.deletedRows.filterMap fun rowIndex =>
    (options.rows[rowIndex]?).map (options.buildPrimaryKeyWhere texts)

/-- The OR-joined batches of MySQL. -/
def conditionBatches (start : Str) (conditions : List Conjunction) : List (List Conjunction) :=
  joinedBatches (texts.conjunction options.databaseType) start " OR ".toList true [] conditions

def updateStatements : List GridStatement :=
  if options.supportsMysqlDataGridBatch then
    (groupConsecutive texts.sets none [] (options.updates texts)).flatMap fun (sets, conditions) =>
      (options.conditionBatches texts (texts.updateHead sets) conditions).map (.update sets)
  else (options.updates texts).map fun (sets, condition) => .update sets [condition]

def deleteStatements : List GridStatement :=
  if options.supportsMysqlDataGridBatch then
    (options.conditionBatches texts texts.deleteHead (options.deletes texts)).map .delete
  else (options.deletes texts).map fun condition => .delete [condition]

/-- The columns and values of a new row that its INSERT lists. -/
def insertPairs (row : List Value) : List (Str × Value) :=
  (options.mappedCells row).filter fun (column, value) =>
    (!(options.info column).any isAutoGeneratedColumn || !gridValueIsEmpty value) &&
      !isGridInsertOmittedColumn options.databaseType (options.info column) column false &&
      value != .null

/-- The columns Hive expects values for, in order. -/
def hiveTargetColumns : List Str :=
  if options.columnInfo.isEmpty then options.effectiveColumns.filterMap id
  else options.columnInfo.map (·.name)

def hiveCells (row : List Value) : List (Str × Value) :=
  options.hiveTargetColumns.map fun column => (column, options.valueOf row column)

def buildHiveValuesInsert (row : List Value)
    (literal : Value → Option DataGridColumnInfo → Str) (skipAllNull : Bool) :
    Option GridStatement :=
  let cells := options.hiveCells row
  if cells.isEmpty then none
  else if skipAllNull && cells.all fun cell => cell.2 == .null then none
  else some (.insertAll (cells.map (·.1)) (cells.map fun cell => literal cell.2 (options.info cell.1)))

def insertStatement (row : List Value) : Option GridStatement :=
  if options.databaseType == some .hive then
    options.buildHiveValuesInsert row texts.formatGridSaveSqlLiteral true
  else
    let pairs := options.insertPairs row
    if pairs.isEmpty then
      if options.databaseType == some .mysql then some (.insert [] [[]]) else none
    else
      some (.insert (pairs.map (·.1))
        [pairs.map fun pair => texts.formatGridSaveSqlLiteral pair.2 (options.info pair.1)])

def buildDataGridSaveStatements : List GridStatement :=
  options.updateStatements texts ++ options.deleteStatements texts ++
    options.newRows.filterMap (options.insertStatement texts)

/-! ## The statements of a rollback -/

def buildMysqlInsertRollbackWhere (row : List Value) : Option Conjunction :=
  let keyIsKnown := fun primaryKey : Str =>
    match options.effectiveColumns.findIdx? (· == some primaryKey) with
    | none => false
    | some index =>
      let value := row.getD index .null
      let info := options.info primaryKey
      !(value == .null || emptyStringSavesAsNull value info || info.any isAutoGeneratedColumn ||
        info.any fun column => isNonIdentityGeneratedColumn (some column))
  if options.tableMeta.primaryKeys.isEmpty || !options.tableMeta.primaryKeys.all keyIsKnown then none
  else some (options.buildPrimaryKeyWhere texts row)

def undoInsert (row : List Value) : Option GridStatement :=
  if options.databaseType == some .mysql then
    (options.buildMysqlInsertRollbackWhere texts row).map fun condition => .delete [condition]
  else
    let condition := options.buildSaveRowWhere texts row
    if condition.isEmpty then none else some (.delete [condition])

/-- The columns and literals that put a deleted row back. -/
def restoreCells (row : List Value) : List (Str × Str) :=
  ((options.mappedCells row).filter fun (column, _) =>
    !isGridInsertOmittedColumn options.databaseType (options.info column) column false).map
    fun (column, value) => (column, texts.literal value (options.info column))

def deletedRowValues : List (List Value) :=
  options.deletedRows.filterMap fun rowIndex => options.rows[rowIndex]?

def undoDeletes : List GridStatement :=
  let rows := options.deletedRowValues
  if options.databaseType == some .hive then
    rows.filterMap fun row => options.buildHiveValuesInsert row texts.literal false
  else
    let inserts := rows.map fun row =>
      ((options.restoreCells texts row).map (·.1), (options.restoreCells texts row).map (·.2))
    if options.supportsMysqlDataGridBatch then
      (groupConsecutive texts.columnList none [] inserts).flatMap fun (columns, tuples) =>
        (joinedBatches GridText.tuple (texts.insertHead columns) ", ".toList false [] tuples).map
          (.insert columns)
    else inserts.map fun (columns, literals) => .insert columns [literals]

/-- The row as the changes leave it. -/
def afterRow (row : List Value) (changes : Changes) : List Value :=
  changes.foldl (fun after (index, value) => after.set index value) row

def undoUpdate (row : List Value) (changes : Changes) : Option GridStatement :=
  let writable := options.writableChanges [] changes
  if writable.isEmpty then none
  else some (.update
    (writable.map fun (column, index, _) =>
      ⟨column, texts.literal (row.getD index .null) (options.info column)⟩)
    [options.buildPrimaryKeyWhere texts (afterRow row changes) ++
      writable.map fun (column, _, value) =>
        texts.buildSaveColumnPredicate options.databaseType column value (options.info column)
          true])

def undoUpdates : List GridStatement :=
  options.dirtyRows.filterMap fun (rowIndex, changes) =>
    (options.rows[rowIndex]?).bind fun row => options.undoUpdate texts row changes

def buildDataGridRollbackStatements : List GridStatement :=
  if options.databaseType == some .clickHouse then []
  else options.newRows.filterMap (options.undoInsert texts) ++ options.undoDeletes texts ++
    options.undoUpdates texts

/-! ## Validation -/

def isOracleLobType (dataType : Str) : Bool :=
  let lower := toAsciiLowercase (trimQuotes (trim dataType))
  let base := baseType ['(', ':', ' '] lower
  ["blob", "clob", "nclob", "bfile", "lob"].any (base == ·.toList) ||
    "binary large object".toList.isPrefixOf lower || "character large object".toList.isPrefixOf lower

def formatKeyValueForMessage : Value → Str
  | .null => "NULL".toList
  | .string text => '"' :: text.flatMap (fun c => if c == '"' then ['\\', '"'] else [c]) ++ ['"']
  | value => value.jsonStringify

/-- The positions of the primary key columns, where they are in the result. -/
def primaryKeyIndexes : List (Option Nat) :=
  options.tableMeta.primaryKeys.map (findColumnIndex options.databaseType options.effectiveColumns)

/-- The key of a row as a JSON text, if no key cell is NULL. -/
def primaryKeyValueKey (indexes : List Nat) (row : List Value) : Option Str :=
  let values := indexes.map fun index => row.getD index .null
  if values.any (· == .null) then none
  else some ('[' :: joinWith [','] (values.map Value.jsonStringify) ++ [']'])

def duplicatePrimaryKeyError (indexes : List Nat) (row : List Value) (matchesExistingRow : Bool) :
    Str :=
  let keySummary := joinWith ", ".toList ((options.tableMeta.primaryKeys.zip indexes).map
    fun (primaryKey, index) =>
      primaryKey ++ " = ".toList ++ formatKeyValueForMessage (row.getD index .null))
  let source :=
    if matchesExistingRow then "the existing primary key" else "another new row's primary key"
  "New row duplicates ".toList ++ source.toList ++ " (".toList ++ keySummary ++
    "). Change the key before saving.".toList

/-- The loop over the new rows, with the keys of the new rows before. -/
def checkNewKeys (indexes : List Nat) (existingKeys newKeys : List Str) :
    List (List Value) → Option Str
  | [] => none
  | row :: rows =>
    match primaryKeyValueKey indexes row with
    | none => checkNewKeys indexes existingKeys newKeys rows
    | some key =>
      if existingKeys.contains key || newKeys.contains key then
        some (options.duplicatePrimaryKeyError indexes row (existingKeys.contains key))
      else checkNewKeys indexes existingKeys (newKeys ++ [key]) rows

def validateInsertedPrimaryKeys : Option Str :=
  if options.tableMeta.primaryKeys.isEmpty || options.newRows.isEmpty ||
      options.primaryKeyIndexes.any Option.isNone then none
  else
    let indexes := options.primaryKeyIndexes.filterMap id
    options.checkNewKeys indexes (options.rows.filterMap (primaryKeyValueKey indexes)) []
      options.newRows

/-- The error for a dirty or deleted row without a value in a key column. -/
def missingKeyValueError (indexes : List Nat) (row : List Value) : Option Str :=
  ((options.tableMeta.primaryKeys.zip indexes).find? fun (_, index) =>
    row.getD index .null == .null).map fun (primaryKey, _) =>
      "Cannot safely update or delete rows because primary key column \"".toList ++ primaryKey ++
        ("\" has no value in the query result. Refresh or rerun the query before " ++
          "saving.").toList

def validateExistingRowPrimaryKeys : Option Str :=
  if options.tableMeta.primaryKeys.isEmpty ||
      options.dirtyRows.isEmpty && options.deletedRows.isEmpty then none
  else
    let missing := (options.tableMeta.primaryKeys.zip options.primaryKeyIndexes).filterMap
      fun (primaryKey, index) => if index.isNone then some primaryKey else none
    if !missing.isEmpty then
      some (("Cannot safely update or delete rows because the query result does not include " ++
          "every primary key column (missing: ").toList ++ joinWith ", ".toList missing ++
        "). Refresh or rerun the query before saving.".toList)
    else
      let indexes := options.primaryKeyIndexes.filterMap id
      (options.dirtyRows.map (·.1) ++ options.deletedRows).findSome? fun rowIndex =>
        (options.rows[rowIndex]?).bind (options.missingKeyValueError indexes)

def validateOracleKeylessLobPredicate : Option Str :=
  if !usesOracleRowId options.databaseType || !options.tableMeta.primaryKeys.isEmpty ||
      options.dirtyRows.isEmpty && options.deletedRows.isEmpty ||
      !options.columnInfo.any (fun column => isOracleLobType column.dataType) then none
  else some (("Cannot safely update or delete this Oracle-compatible row because the table has " ++
    "LOB columns but no primary key or ROWID identifier.").toList)

def validateClickhouseMutableUpdates : Option Str :=
  if options.databaseType != some .clickHouse || options.dirtyRows.isEmpty ||
      options.primaryKeySet.isEmpty && !options.columnInfo.any (fun column =>
        isClickhousePartitionKeyColumn options.databaseType (some column)) then none
  else if options.dirtyRows.any fun (_, changes) =>
      !changes.isEmpty && (options.writableChanges options.primaryKeySet changes).isEmpty then
    some ("ClickHouse primary or partition key columns cannot be updated. Change a non-key " ++
      "column before saving.").toList
  else none

def notNullColumns : List Str :=
  (options.columnInfo.filter fun column =>
    !column.isNullable && column.columnDefault.isNone && !isAutoGeneratedColumn column &&
      !isNonIdentityGeneratedColumn (some column) &&
      !isOracleRowId options.databaseType column.name).map fun column =>
    normalizeColumnName column.name

/-- The error for a NULL that would be written to a column that does not allow it. -/
def nullWriteError (column : Option Str) (value : Value) : Option Str :=
  match column with
  | none => none
  | some column =>
    if !isOracleRowId options.databaseType column && value == .null &&
        options.notNullColumns.contains (normalizeColumnName column) then
      some ("Column \"".toList ++ column ++ "\" does not allow NULL.".toList)
    else none

def validateNotNull : Option Str :=
  let inDirtyRows := options.dirtyRows.findSome? fun (_, changes) =>
    changes.findSome? fun (index, value) => options.nullWriteError (options.columnAt index) value
  let inNewRows :=
    if options.databaseType == some .mysql then none
    else options.newRows.findSome? fun row =>
      (List.range options.columns.length).findSome? fun index =>
        options.nullWriteError (options.columnAt index) (row.getD index .null)
  inDirtyRows.or inNewRows

/-- The checks in the order of `validate_data_grid_save`; the first error is reported. -/
def validateDataGridSave : Option Str :=
  options.validateInsertedPrimaryKeys.or (options.validateExistingRowPrimaryKeys.or
    (options.validateOracleKeylessLobPredicate.or
      (options.validateClickhouseMutableUpdates.or options.validateNotNull)))

end DataGridSaveStatementOptions

structure DataGridSavePreparation where
  validationError : Option Str
  statements : List GridStatement
  rollbackStatements : List GridStatement

def prepareDataGridSave (options : DataGridSaveStatementOptions) (texts : GridText) :
    DataGridSavePreparation :=
  match options.validateDataGridSave with
  | some error => ⟨some error, [], []⟩
  | none =>
    ⟨none, options.buildDataGridSaveStatements texts, options.buildDataGridRollbackStatements texts⟩

end Dbx.Source.DataGrid
