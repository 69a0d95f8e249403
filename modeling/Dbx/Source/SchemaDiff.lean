import Mathlib.Data.Char
import Mathlib.Data.List.Lex
import Mathlib.Data.Rat.Defs
import Dbx.Lib.Keyed
import Dbx.Lib.Text

/-!
# Comparing two schemas

Model of `diff_schema` (`crates/dbx-core/src/schema_diff.rs:1964-2273`), of the comparisons of
columns, indexes, foreign keys and triggers under it (2541-3043), and of `shard_diff`
(1352-1451). A record has the fields that these functions and the generator of the
synchronisation script read. Hash maps are filled from lists; a set of names is a list. The
normal form in which MySQL views are compared is a parameter, and so is the order in which a
hash map is walked through.
-/
namespace Dbx.Source.SchemaDiff

open Dbx.Lib.Text Dbx.Lib.Keyed

/-! ## What the drivers report -/

inductive DialectKind where
  | mysql | postgres | sqlite | duckDb | sqlServer | oracle | h2 | clickHouse
  | manticoreSearch | informix | questdb | unsupported
  deriving DecidableEq

structure TableInfo where
  name : Str
  tableType : Str
  comment : Option Str
  parentSchema : Option Str
  deriving DecidableEq

structure ColumnInfo where
  name : Str
  dataType : Str
  isNullable : Bool
  columnDefault : Option Str
  isPrimaryKey : Bool
  extra : Option Str
  comment : Option Str
  deriving DecidableEq

structure IndexInfo where
  name : Str
  columns : List Str
  isUnique : Bool
  isPrimary : Bool
  filter : Option Str
  indexType : Option Str
  includedColumns : Option (List Str)
  comment : Option Str
  keyIsExpression : List Bool
  deriving DecidableEq

/-- One row per column of a constraint. -/
structure ForeignKeyInfo where
  name : Str
  column : Str
  refSchema : Option Str
  refTable : Str
  refColumn : Str
  onUpdate : Option Str
  onDelete : Option Str
  deriving DecidableEq

structure TriggerInfo where
  name : Str
  event : Str
  timing : Str
  statement : Option Str
  deriving DecidableEq

structure TableSchemaDetail where
  name : Str
  columns : List ColumnInfo
  indexes : List IndexInfo
  foreignKeys : List ForeignKeyInfo
  triggers : List TriggerInfo
  ddl : Option Str
  deriving DecidableEq

/-! ## What is found -/

inductive DiffType where
  | added | removed | modified | renamed | none
  deriving DecidableEq

inductive ColumnAddPosition where
  | first
  | after (column : Str)
  deriving DecidableEq

structure ColumnDiff where
  diffType : DiffType
  name : Str
  source : Option ColumnInfo
  target : Option ColumnInfo
  changes : List Str
  addPosition : Option ColumnAddPosition
  deriving DecidableEq

/-- `IndexDiff`, `ForeignKeyDiff` and `TriggerDiff`. -/
structure ItemDiff (α : Type) where
  diffType : DiffType
  name : Str
  source : Option α
  target : Option α
  changes : List Str
  deriving DecidableEq

inductive ObjectType where
  | table | view
  deriving DecidableEq

structure TableDiff where
  diffType : DiffType
  objectType : ObjectType
  name : Str
  columns : Option (List ColumnDiff)
  indexes : Option (List (ItemDiff IndexInfo))
  foreignKeys : Option (List (ItemDiff ForeignKeyInfo))
  triggers : Option (List (ItemDiff TriggerInfo))
  ddl : Option Str
  targetDdl : Option Str
  sourceTableComment : Option (Option Str)
  targetTableComment : Option (Option Str)
  deriving DecidableEq

structure Options where
  sourceTables : List TableInfo
  targetTables : List TableInfo
  sourceDetails : List TableSchemaDetail
  targetDetails : List TableSchemaDetail
  ignoreComments : Bool
  compareColumnOrder : Bool
  detectRenames : Bool
  renameThreshold : ℚ
  sourceDialect : Option DialectKind
  targetDialect : Option DialectKind

/-! ## Indexes, foreign keys and triggers

The three comparisons differ in the items they skip and in the changes they list. -/

section Items

variable {α : Type}

/-- A change that is listed where two values differ. -/
def changeIf {β : Type} [DecidableEq β] (source target : β) (text : Str) : List Str :=
  if source ≠ target then [text] else []

/-- `label: before → after`. -/
def change (label : String) (before after : Str) : Str :=
  label.toList ++ ": ".toList ++ before ++ " → ".toList ++ after

def yesNo (b : Bool) : Str := if b then "YES".toList else "NO".toList

def diffItem (name : α → Str) (changes : α → α → List Str) (target : List α) (item : α) :
    List (ItemDiff α) :=
  match lookupLast name target (name item) with
  | none => [⟨.added, name item, some item, none, []⟩]
  | some other =>
    if changes item other = [] then []
    else [⟨.modified, name item, some item, some other, changes item other⟩]

def diffItems (skip : α → Bool) (name : α → Str) (changes : α → α → List Str)
    (source target : List α) : List (ItemDiff α) :=
  (source.filter fun item => !skip item).flatMap (diffItem name changes target) ++
    ((target.filter fun item => !skip item && (lookupLast name source (name item)).isNone).map
      fun item => ⟨.removed, name item, none, some item, []⟩)

end Items

def indexChanges (source target : IndexInfo) : List Str :=
  let included (index : IndexInfo) := index.includedColumns.getD []
  let listed (columns : List Str) :=
    if columns.isEmpty then "none".toList else joinWith ", ".toList columns
  changeIf source.isUnique target.isUnique
      (change "unique" (yesNo target.isUnique) (yesNo source.isUnique)) ++
    changeIf (joinWith [','] source.columns) (joinWith [','] target.columns)
      (change "columns" (joinWith ", ".toList target.columns)
        (joinWith ", ".toList source.columns)) ++
    changeIf (source.indexType.getD []) (target.indexType.getD [])
      (change "type" (target.indexType.getD "default".toList)
        (source.indexType.getD "default".toList)) ++
    changeIf (source.filter.getD []) (target.filter.getD [])
      (change "filter" (target.filter.getD "none".toList) (source.filter.getD "none".toList)) ++
    changeIf (joinWith [','] (included source)) (joinWith [','] (included target))
      (change "include" (listed (included target)) (listed (included source)))

def diffIndexes : List IndexInfo → List IndexInfo → List (ItemDiff IndexInfo) :=
  diffItems IndexInfo.isPrimary IndexInfo.name indexChanges

def normalizedForeignKeyAction (action : Option Str) : Option Str :=
  (action.map fun value => toAsciiUppercase (joinWith [' '] (splitWhitespace value))).filter
    fun value => !value.isEmpty

def normalizeSelfReferencingFk (ownTableNames : List Str) (fk : ForeignKeyInfo) : ForeignKeyInfo :=
  if fk.refSchema.isSome && ownTableNames.contains fk.refTable then { fk with refSchema := none }
  else fk

def foreignKeyChanges (source target : ForeignKeyInfo) : List Str :=
  let onDelete (fk : ForeignKeyInfo) := normalizedForeignKeyAction fk.onDelete
  let onUpdate (fk : ForeignKeyInfo) := normalizedForeignKeyAction fk.onUpdate
  changeIf source.column target.column (change "column" target.column source.column) ++
    changeIf source.refTable target.refTable (change "ref table" target.refTable source.refTable) ++
    changeIf source.refSchema target.refSchema
      (change "ref schema" (target.refSchema.getD []) (source.refSchema.getD [])) ++
    changeIf source.refColumn target.refColumn
      (change "ref column" target.refColumn source.refColumn) ++
    changeIf (onDelete source) (onDelete target)
      (change "delete" ((onDelete target).getD []) ((onDelete source).getD [])) ++
    changeIf (onUpdate source) (onUpdate target)
      (change "update" ((onUpdate target).getD []) ((onUpdate source).getD []))

def diffForeignKeys : List ForeignKeyInfo → List ForeignKeyInfo → List (ItemDiff ForeignKeyInfo) :=
  diffItems (fun _ => false) ForeignKeyInfo.name foreignKeyChanges

def triggerChanges (source target : TriggerInfo) : List Str :=
  changeIf source.event target.event (change "event" target.event source.event) ++
    changeIf source.timing target.timing (change "timing" target.timing source.timing)

def diffTriggers : List TriggerInfo → List TriggerInfo → List (ItemDiff TriggerInfo) :=
  diffItems (fun _ => false) TriggerInfo.name triggerChanges

/-! ## Columns -/

/-- What stands before the first of a character, and what after it. -/
def splitOnce (c : Char) (text : Str) : Option (Str × Str) :=
  if text.contains c then some (text.takeWhile (· != c), (text.dropWhile (· != c)).tail) else none

def normalizeMysqlIntegerTypeForComparison (dataType : Str) : Str :=
  let normalized := toAsciiLowercase (joinWith [' '] (splitWhitespace dataType))
  match splitOnce '(' normalized with
  | none => normalized
  | some (front, inner) =>
    match splitOnce ')' inner with
    | none => normalized
    | some (inside, behind) =>
      let base := trim front
      let width := trim inside
      let integerType := (["tinyint", "smallint", "mediumint", "int", "integer", "bigint",
        "year"].map String.toList).contains base
      if !integerType || width.isEmpty || !width.all Char.isDigit then normalized
      else
        let suffix := trim behind
        if suffix.isEmpty then base else base ++ ' ' :: suffix

def columnTypesEqualForDialects (sourceType targetType : Str)
    (sourceDialect targetDialect : Option DialectKind) : Bool :=
  eqIgnoreAsciiCase sourceType targetType ||
    (sourceDialect == some .mysql && targetDialect == some .mysql &&
      normalizeMysqlIntegerTypeForComparison sourceType ==
        normalizeMysqlIntegerTypeForComparison targetType)

/-- `replace` of a text that is not empty. -/
def replaceAll (needle replacement : Str) (text : Str) : Str :=
  match text with
  | [] => []
  | c :: rest =>
    if needle.isPrefixOf (c :: rest) && !needle.isEmpty then
      replacement ++ replaceAll needle replacement (rest.drop (needle.length - 1))
    else c :: replaceAll needle replacement rest
termination_by text.length
decreasing_by
  · simp only [List.length_drop, List.length_cons]
    omega
  · simp

/-- `ColumnType::parse(..).base_type`. -/
def baseType (text : Str) : Str :=
  let trimmed := trim text
  let base :=
    match splitOnce '(' trimmed with
    | some (front, _) => if trimmed.getLast? == some ')' then trim front else trimmed
    | none => trimmed
  trim (replaceAll "[]".toList [] (replaceAll " UNSIGNED".toList []
    (replaceAll " unsigned".toList [] base)))

/-- The `f64` nearest to 0.8. -/
def eightTenths : ℚ := 3602879701896397 / 4503599627370496

/-- The `f64` product of 0.8 with itself. -/
def eightTenthsSquared : ℚ := 1441151880758559 / 2251799813685248

def columnTypeSimilarityScore (sourceType targetType : Str) : ℚ :=
  let s := toAsciiLowercase (baseType sourceType)
  let t := toAsciiLowercase (baseType targetType)
  let exactMatches := [("int", "integer"), ("integer", "int"), ("float", "real"),
    ("real", "float"), ("double", "double precision"), ("double precision", "double"),
    ("bool", "boolean"), ("boolean", "bool"), ("timestamp", "datetime"),
    ("datetime", "timestamp")].map fun pair => (pair.1.toList, pair.2.toList)
  let integerFamily := ["tinyint", "smallint", "mediumint", "int", "integer", "bigint", "serial",
    "bigserial"].map String.toList
  let textFamily := ["char", "varchar", "text", "tinytext", "mediumtext", "longtext", "clob",
    "nclob"].map String.toList
  if s = t ∨ exactMatches.contains (s, t) then 1
  else if integerFamily.contains s && integerFamily.contains t then eightTenths
  else if textFamily.contains s && textFamily.contains t then eightTenths
  else 0

def columnAddPosition (columns : List ColumnInfo) (index : Nat) : ColumnAddPosition :=
  if index = 0 then .first else .after ((columns.map ColumnInfo.name).getD (index - 1) [])

structure ColumnSettings where
  ignoreComments : Bool
  compareColumnOrder : Bool
  detectRenames : Bool
  renameThreshold : ℚ
  sourceDialect : Option DialectKind
  targetDialect : Option DialectKind

/-- The last position of a name. -/
def positionOf (columns : List ColumnInfo) (name : Str) : Option Nat :=
  (lookupLast (fun entry : ColumnInfo × Nat => entry.1.name) columns.zipIdx name).map Prod.snd

def columnChanges (settings : ColumnSettings) (source target : ColumnInfo) : List Str :=
  (if columnTypesEqualForDialects source.dataType target.dataType settings.sourceDialect
        settings.targetDialect then []
      else [change "type" target.dataType source.dataType]) ++
    changeIf source.isNullable target.isNullable
      (change "nullable" (yesNo target.isNullable) (yesNo source.isNullable)) ++
    changeIf (source.columnDefault.getD []) (target.columnDefault.getD [])
      (change "default" (target.columnDefault.getD "NULL".toList)
        (source.columnDefault.getD "NULL".toList)) ++
    if settings.ignoreComments then []
    else changeIf (source.comment.getD []) (target.comment.getD [])
      (change "comment" (target.comment.getD []) (source.comment.getD []))

/-- A number as text. -/
def showNat (n : Nat) : Str := (Nat.repr n).toList

def orderChange (canCompareOrder : Bool) (target : List ColumnInfo) (name : Str) (index : Nat) :
    List Str :=
  match positionOf target name with
  | some targetIndex =>
    if canCompareOrder && index != targetIndex then
      [change "order" (showNat (targetIndex + 1)) (showNat (index + 1))]
    else []
  | none => []

def diffColumn (settings : ColumnSettings) (source target : List ColumnInfo)
    (entry : ColumnInfo × Nat) : List ColumnDiff :=
  let canCompareOrder := settings.compareColumnOrder && source.length == target.length &&
    source.all fun column => (lookupLast ColumnInfo.name target column.name).isSome
  match lookupLast ColumnInfo.name target entry.1.name with
  | none => [⟨.added, entry.1.name, some entry.1, none, [], some (columnAddPosition source entry.2)⟩]
  | some other =>
    let changes := columnChanges settings entry.1 other ++
      orderChange canCompareOrder target entry.1.name entry.2
    if changes = [] then []
    else [⟨.modified, entry.1.name, some entry.1, some other, changes, none⟩]

def columnDiffs (settings : ColumnSettings) (source target : List ColumnInfo) : List ColumnDiff :=
  source.zipIdx.flatMap (diffColumn settings source target) ++
    (target.zipIdx.filter fun entry => (lookupLast ColumnInfo.name source entry.1.name).isNone).map
      fun entry =>
        ⟨.removed, entry.1.name, none, some entry.1, [], some (columnAddPosition target entry.2)⟩

/-! ### Renamed columns -/

def renameScore (removed added : ColumnInfo) : ℚ :=
  let typeScore := columnTypeSimilarityScore removed.dataType added.dataType
  if removed.isNullable = added.isNullable then typeScore
  else if typeScore = 1 then eightTenths
  else if typeScore = eightTenths then eightTenthsSquared
  else 0

/-- The first of the added columns with the highest score. -/
def bestAdded (threshold : ℚ) (removed : ColumnInfo) (added : List (Nat × ColumnInfo)) :
    Option Nat :=
  (added.foldl (fun best entry =>
    if columnTypeSimilarityScore removed.dataType entry.2.dataType < threshold then best
    else if best.1 < renameScore removed entry.2 then (renameScore removed entry.2, some entry.1)
    else best) ((0 : ℚ), (none : Option Nat))).2

/-- Positions of a removed column and of the added column it became. -/
def renamePairs (threshold : ℚ) : List (Nat × ColumnInfo) → List (Nat × ColumnInfo) →
    List (Nat × Nat)
  | [], _ => []
  | (position, column) :: removed, added =>
    match bestAdded threshold column added with
    | none => renamePairs threshold removed added
    | some other =>
      (position, other) :: renamePairs threshold removed (added.filter fun entry => entry.1 ≠ other)

/-- The columns of one kind of difference, with their positions. -/
def columnsOfType (kind : DiffType) (column : ColumnDiff → Option ColumnInfo)
    (diffs : List ColumnDiff) : List (Nat × ColumnInfo) :=
  diffs.zipIdx.filterMap fun entry =>
    if entry.1.diffType = kind then (column entry.1).map fun column => (entry.2, column) else none

def renamedDiff (diffs : List ColumnDiff) (old : ColumnDiff) (added : Nat) : ColumnDiff :=
  let newColumn := (diffs[added]?).bind ColumnDiff.source
  let newName := (newColumn.map ColumnInfo.name).getD []
  ⟨.renamed, newName, newColumn, old.target, [old.name ++ " → ".toList ++ newName], none⟩

def matchRenames (threshold : ℚ) (diffs : List ColumnDiff) : List ColumnDiff :=
  let pairs := renamePairs threshold (columnsOfType .removed ColumnDiff.target diffs)
    (columnsOfType .added ColumnDiff.source diffs)
  diffs.zipIdx.filterMap fun entry =>
    if pairs.any fun pair => pair.2 == entry.2 then none
    else
      match pairs.lookup entry.2 with
      | some added => some (renamedDiff diffs entry.1 added)
      | none => some entry.1

def diffColumnsWithDialectOptions (settings : ColumnSettings) (source target : List ColumnInfo) :
    List ColumnDiff :=
  let diffs := columnDiffs settings source target
  if settings.detectRenames && decide (0 < settings.renameThreshold) then
    matchRenames settings.renameThreshold diffs
  else diffs

/-! ## Tables and views -/

def isView (table : TableInfo) : Bool := occursIn "VIEW".toList table.tableType

def tableNames (tables : List TableInfo) : List Str :=
  (tables.filter fun table => !isView table).map TableInfo.name

def viewNames (tables : List TableInfo) : List Str := (tables.filter isView).map TableInfo.name

structure NameDiff where
  added : List Str
  removed : List Str
  common : List Str

def diffNames (source target : List Str) : NameDiff where
  added := source.filter fun name => !target.contains name
  removed := target.filter fun name => !source.contains name
  common := source.filter fun name => target.contains name

def detailOf (details : List TableSchemaDetail) (name : Str) : Option TableSchemaDetail :=
  lookupLast TableSchemaDetail.name details name

def commentOf (tables : List TableInfo) (name : Str) : Option (Option Str) :=
  (lookupLast TableInfo.name tables name).map TableInfo.comment

def ItemDiff.onlySource {α : Type} (name : α → Str) (item : α) : ItemDiff α :=
  ⟨.added, name item, some item, none, []⟩

def ItemDiff.onlyTarget {α : Type} (name : α → Str) (item : α) : ItemDiff α :=
  ⟨.removed, name item, none, some item, []⟩

def addedTable (o : Options) (name : Str) : TableDiff :=
  let detail := detailOf o.sourceDetails name
  { diffType := .added
    objectType := .table
    name
    ddl := detail.bind TableSchemaDetail.ddl
    targetDdl := none
    columns := detail.map fun detail => detail.columns.zipIdx.map fun entry =>
      ⟨.added, entry.1.name, some entry.1, none, [],
        some (columnAddPosition detail.columns entry.2)⟩
    indexes := detail.map fun detail => detail.indexes.map (.onlySource IndexInfo.name)
    foreignKeys := detail.map fun detail => detail.foreignKeys.map fun fk =>
      .onlySource ForeignKeyInfo.name (normalizeSelfReferencingFk (tableNames o.sourceTables) fk)
    triggers := detail.bind fun detail =>
      if detail.triggers.isEmpty then none
      else some (detail.triggers.map (.onlySource TriggerInfo.name))
    sourceTableComment := none
    targetTableComment := none }

def removedTable (o : Options) (name : Str) : TableDiff :=
  let detail := detailOf o.targetDetails name
  { diffType := .removed
    objectType := .table
    name
    ddl := none
    targetDdl := detail.bind TableSchemaDetail.ddl
    columns := detail.map fun detail => detail.columns.zipIdx.map fun entry =>
      ⟨.removed, entry.1.name, none, some entry.1, [],
        some (columnAddPosition detail.columns entry.2)⟩
    indexes := detail.map fun detail => detail.indexes.map (.onlyTarget IndexInfo.name)
    foreignKeys := detail.map fun detail => detail.foreignKeys.map (.onlyTarget ForeignKeyInfo.name)
    triggers := detail.map fun detail => detail.triggers.map (.onlyTarget TriggerInfo.name)
    sourceTableComment := none
    targetTableComment := commentOf o.targetTables name }

def viewDiff (diffType : DiffType) (name : Str) (ddl targetDdl : Option Str) : TableDiff where
  diffType
  objectType := .view
  name
  columns := none
  indexes := none
  foreignKeys := none
  triggers := none
  ddl
  targetDdl
  sourceTableComment := none
  targetTableComment := none

def addedView (o : Options) (name : Str) : TableDiff :=
  viewDiff .added name ((detailOf o.sourceDetails name).bind TableSchemaDetail.ddl) none

def removedView (o : Options) (name : Str) : TableDiff :=
  viewDiff .removed name none ((detailOf o.targetDetails name).bind TableSchemaDetail.ddl)

/-- Views are compared for MySQL only. -/
def mysqlViewDefinitionsDiffer (normalize : Str → Str) (o : Options) (source target : Str) : Bool :=
  o.sourceDialect == some .mysql && o.targetDialect == some .mysql &&
    normalize source != normalize target

def commonView (normalize : Str → Str) (o : Options) (name : Str) : Option TableDiff :=
  match (detailOf o.sourceDetails name).bind TableSchemaDetail.ddl,
    (detailOf o.targetDetails name).bind TableSchemaDetail.ddl with
  | some source, some target =>
    if mysqlViewDefinitionsDiffer normalize o source target then
      some (viewDiff .modified name (some source) (some target))
    else none
  | _, _ => none

def columnSettings (o : Options) : ColumnSettings where
  ignoreComments := o.ignoreComments
  compareColumnOrder := o.compareColumnOrder
  detectRenames := o.detectRenames
  renameThreshold := o.renameThreshold
  sourceDialect := o.sourceDialect
  targetDialect := o.targetDialect

/-- A list that is reported only where it is not empty. -/
def reported {α : Type} (diffs : List α) : Option (List α) :=
  if diffs.isEmpty then none else some diffs

def compareTables (o : Options) (name : Str) (source target : TableSchemaDetail) : TableDiff :=
  let columnDiffs := diffColumnsWithDialectOptions (columnSettings o) source.columns target.columns
  let indexDiffs := diffIndexes source.indexes target.indexes
  let foreignKeyDiffs := diffForeignKeys
    (source.foreignKeys.map (normalizeSelfReferencingFk (tableNames o.sourceTables)))
    (target.foreignKeys.map (normalizeSelfReferencingFk (tableNames o.targetTables)))
  let triggerDiffs := diffTriggers source.triggers target.triggers
  let sourceComment := (commentOf o.sourceTables name).getD none
  let targetComment := (commentOf o.targetTables name).getD none
  let commentChanged := !o.ignoreComments && sourceComment.getD [] != targetComment.getD []
  let hasDiff := !columnDiffs.isEmpty || !indexDiffs.isEmpty || !foreignKeyDiffs.isEmpty ||
    !triggerDiffs.isEmpty || commentChanged
  { diffType := if hasDiff then .modified else .none
    objectType := .table
    name
    columns := if hasDiff then reported columnDiffs else none
    indexes := if hasDiff then reported indexDiffs else none
    foreignKeys := if hasDiff then reported foreignKeyDiffs else none
    triggers := if hasDiff then reported triggerDiffs else none
    ddl := source.ddl
    targetDdl := target.ddl
    sourceTableComment := if commentChanged then some sourceComment else none
    targetTableComment := if commentChanged then some targetComment else none }

def commonTable (o : Options) (name : Str) : Option TableDiff :=
  match detailOf o.sourceDetails name, detailOf o.targetDetails name with
  | some source, some target => some (compareTables o name source target)
  | _, _ => none

def diffSchema (normalize : Str → Str) (o : Options) : List TableDiff :=
  let tables := diffNames (tableNames o.sourceTables) (tableNames o.targetTables)
  let views := diffNames (viewNames o.sourceTables) (viewNames o.targetTables)
  (tables.added.map (addedTable o) ++ tables.removed.map (removedTable o) ++
      views.added.map (addedView o) ++ views.removed.map (removedView o) ++
      views.common.filterMap (commonView normalize o) ++
      tables.common.filterMap (commonTable o)).filter fun diff => diff.diffType ≠ .none

/-! ## Comparing in shards -/

inductive ShardBy where
  | table | schema | roundRobin
  deriving DecidableEq

structure ShardStrategy where
  shardCount : Nat
  shardBy : ShardBy

/-- Items dealt out in turn. -/
def dealOut {α : Type} (count : Nat) (items : List α) : List (List α) :=
  (List.range count).map fun shard =>
    (items.zipIdx.filter fun entry => entry.2 % count == shard).map Prod.fst

/-- `table.parent_schema.as_deref().unwrap_or("default")`. -/
def schemaOf (table : TableInfo) : Str := table.parentSchema.getD "default".toList

/-- The names of each schema. -/
def schemaGroups (tables : List TableInfo) : List (Str × List Str) :=
  (tables.map schemaOf).dedup.map fun schema =>
    (schema, (tables.filter fun table => schemaOf table == schema).map TableInfo.name)

/-- The names of each shard. A hash map is walked through as `iterate` says. -/
def shards (iterate : List (Str × List Str) → List (Str × List Str)) (o : Options)
    (shardBy : ShardBy) (count : Nat) : List (List Str) :=
  match shardBy with
  | .table | .roundRobin => dealOut count (tableNames o.sourceTables ++ viewNames o.sourceTables)
  | .schema => (dealOut count (iterate (schemaGroups o.sourceTables))).map fun groups =>
      groups.flatMap Prod.snd

/-- The options of one shard: `..Default::default()` stands for the detection of renames. -/
def shardOptions (o : Options) (shard : List Str) : Options where
  sourceTables := o.sourceTables.filter fun table => shard.contains table.name
  targetTables := o.targetTables.filter fun table => shard.contains table.name
  sourceDetails := o.sourceDetails.filter fun detail => shard.contains detail.name
  targetDetails := o.targetDetails.filter fun detail => shard.contains detail.name
  ignoreComments := o.ignoreComments
  compareColumnOrder := o.compareColumnOrder
  detectRenames := false
  renameThreshold := 1 / 2
  sourceDialect := o.sourceDialect
  targetDialect := o.targetDialect

/-- `dedup_by`: an item goes where it falls together with the last one kept. -/
def dedupBy {α : Type} (same : α → α → Bool) : Option α → List α → List α
  | _, [] => []
  | kept, item :: items =>
    if kept.any (same item) then dedupBy same kept items
    else item :: dedupBy same (some item) items

def effectiveShardCount (o : Options) (strategy : ShardStrategy) : Nat :=
  min strategy.shardCount (max (max o.sourceTables.length o.targetTables.length) 1)

def shardDiff (normalize : Str → Str)
    (iterate : List (Str × List Str) → List (Str × List Str)) (o : Options)
    (strategy : ShardStrategy) : List TableDiff :=
  let count := effectiveShardCount o strategy
  if count ≤ 1 then diffSchema normalize o
  else
    let used := (shards iterate o strategy.shardBy count).filter fun shard => !shard.isEmpty
    let merged := used.flatMap fun shard => diffSchema normalize (shardOptions o shard)
    dedupBy (fun a b => a.name == b.name && a.diffType == b.diffType) none
      (merged.insertionSort fun a b => a.name ≤ b.name)

end Dbx.Source.SchemaDiff
