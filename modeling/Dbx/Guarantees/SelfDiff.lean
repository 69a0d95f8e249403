import Mathlib.Tactic.SplitIfs
import Dbx.Source.SchemaDiff

/-!
# A schema compared with itself

Tables, columns, indexes and triggers have names that do not repeat, so each is compared with
itself. A foreign key has one row per column, all under one name, and each row is compared with
the last of them. A schema therefore has no difference with itself exactly where the rows of
one constraint agree in everything that is compared, column and referenced column included
(`self_diff_empty_iff`): a constraint over two columns is reported as modified
(`composite_key_differs`), and the script drops it and adds it again row by row.
-/
namespace Dbx.Guarantees.SelfDiff

open Dbx.Lib.Text Dbx.Lib.Keyed Dbx.Source.SchemaDiff List

/-- What the drivers report of one database. -/
structure Snapshot where
  tables : List TableInfo
  details : List TableSchemaDetail
  tables_distinct : (tables.map TableInfo.name).Nodup
  columns_distinct : ∀ detail ∈ details, (detail.columns.map ColumnInfo.name).Nodup
  indexes_distinct : ∀ detail ∈ details, (detail.indexes.map IndexInfo.name).Nodup
  triggers_distinct : ∀ detail ∈ details, (detail.triggers.map TriggerInfo.name).Nodup

/-- The settings of a comparison whose two sides have one dialect. -/
structure Settings where
  ignoreComments : Bool
  compareColumnOrder : Bool
  detectRenames : Bool
  renameThreshold : ℚ
  dialect : Option DialectKind

/-- The snapshot is the source and the target. -/
def selfOptions (snapshot : Snapshot) (settings : Settings) : Options where
  sourceTables := snapshot.tables
  targetTables := snapshot.tables
  sourceDetails := snapshot.details
  targetDetails := snapshot.details
  ignoreComments := settings.ignoreComments
  compareColumnOrder := settings.compareColumnOrder
  detectRenames := settings.detectRenames
  renameThreshold := settings.renameThreshold
  sourceDialect := settings.dialect
  targetDialect := settings.dialect

@[simp] theorem selfOptions_sourceTables (snapshot : Snapshot) (settings : Settings) :
    (selfOptions snapshot settings).sourceTables = snapshot.tables := rfl

@[simp] theorem selfOptions_targetTables (snapshot : Snapshot) (settings : Settings) :
    (selfOptions snapshot settings).targetTables = snapshot.tables := rfl

/-! ## Items -/

section Items

variable {α : Type} {skip : α → Bool} {name : α → Str} {changes : α → α → List Str}

@[simp] theorem changeIf_self {β : Type} [DecidableEq β] (value : β) (text : Str) :
    changeIf value value text = [] := by simp [changeIf]

theorem changeIf_eq_nil {β : Type} [DecidableEq β] {source target : β} {text : Str} :
    changeIf source target text = [] ↔ source = target := by
  simp [changeIf]

/-- Nothing is added or removed, so only the changes against the last item of a name count. -/
theorem diffItems_self_eq_nil {items : List α} : diffItems skip name changes items items = [] ↔
    ∀ item ∈ items, skip item = false →
      ∀ other, lookupLast name items (name item) = some other → changes item other = [] := by
  have found : ∀ item ∈ items, lookupLast name items (name item) ≠ none := by
    intro item member missing
    exact lookupLast_eq_none.mp missing item member rfl
  have nothingRemoved : (items.filter fun item => !skip item &&
      (lookupLast name items (name item)).isNone) = [] := by
    rw [filter_eq_nil_iff]
    intro item member
    cases last : lookupLast name items (name item) with
    | none => exact absurd last (found item member)
    | some other => simp
  simp only [diffItems, nothingRemoved, map_nil, append_nil, flatMap_eq_nil_iff,
    mem_filter, Bool.not_eq_true', and_imp]
  constructor
  · intro same item member kept other last
    have none := same item member kept
    simp only [diffItem, last] at none
    by_contra changed
    rw [if_neg changed] at none
    cases none
  · intro unchanged item member kept
    cases last : lookupLast name items (name item) with
    | none => exact absurd last (found item member)
    | some other => simp [diffItem, last, unchanged item member kept other last]

theorem diffItems_self_of_nodup {items : List α} (distinct : (items.map name).Nodup)
    (reflexive : ∀ item, changes item item = []) : diffItems skip name changes items items = [] := by
  rw [diffItems_self_eq_nil]
  intro item member _ other last
  rw [lookupLast_of_mem distinct member rfl, Option.some.injEq] at last
  rw [← last]
  exact reflexive item

end Items

theorem diffIndexes_self {indexes : List IndexInfo}
    (distinct : (indexes.map IndexInfo.name).Nodup) : diffIndexes indexes indexes = [] :=
  diffItems_self_of_nodup distinct fun _ => by simp [indexChanges]

theorem diffTriggers_self {triggers : List TriggerInfo}
    (distinct : (triggers.map TriggerInfo.name).Nodup) : diffTriggers triggers triggers = [] :=
  diffItems_self_of_nodup distinct fun _ => by simp [triggerChanges]

/-! ## Foreign keys -/

/-- Two rows agree in what is compared; the schema of a table of the snapshot is not. -/
def RowsAgree (ownTableNames : List Str) (left right : ForeignKeyInfo) : Prop :=
  left.column = right.column ∧ left.refTable = right.refTable ∧
    left.refColumn = right.refColumn ∧
    (left.refTable ∈ ownTableNames ∨ left.refSchema = right.refSchema) ∧
    normalizedForeignKeyAction left.onDelete = normalizedForeignKeyAction right.onDelete ∧
    normalizedForeignKeyAction left.onUpdate = normalizedForeignKeyAction right.onUpdate

/-- The rows of each constraint agree. -/
def ConstraintsAgree (ownTableNames : List Str) (rows : List ForeignKeyInfo) : Prop :=
  ∀ left ∈ rows, ∀ right ∈ rows, left.name = right.name → RowsAgree ownTableNames left right

variable (fk : ForeignKeyInfo)

section ForeignKeys

variable {own : List Str}

theorem RowsAgree.symm {left right : ForeignKeyInfo} (agree : RowsAgree own left right) :
    RowsAgree own right left := by
  obtain ⟨column, table, refColumn, schema, onDelete, onUpdate⟩ := agree
  exact ⟨column.symm, table.symm, refColumn.symm, table ▸ schema.imp id Eq.symm, onDelete.symm,
    onUpdate.symm⟩

theorem RowsAgree.trans {a b c : ForeignKeyInfo} (left : RowsAgree own a b)
    (right : RowsAgree own b c) : RowsAgree own a c := by
  obtain ⟨column, table, refColumn, schema, onDelete, onUpdate⟩ := left
  obtain ⟨column', table', refColumn', schema', onDelete', onUpdate'⟩ := right
  refine ⟨column.trans column', table.trans table', refColumn.trans refColumn', ?_,
    onDelete.trans onDelete', onUpdate.trans onUpdate'⟩
  obtain owned | same := schema
  · exact Or.inl owned
  · rw [← table] at schema'
    exact schema'.imp id same.trans

@[simp] theorem normalize_name : (normalizeSelfReferencingFk own fk).name = fk.name := by
  unfold normalizeSelfReferencingFk
  split <;> rfl

theorem normalize_refSchema : (normalizeSelfReferencingFk own fk).refSchema =
      if fk.refTable ∈ own then none else fk.refSchema := by
  unfold normalizeSelfReferencingFk
  cases schema : fk.refSchema <;> by_cases owned : fk.refTable ∈ own <;> simp [owned, schema]

/-- Everything but the schema is kept. -/
theorem normalize_eq : normalizeSelfReferencingFk own fk =
    { fk with refSchema := (normalizeSelfReferencingFk own fk).refSchema } := by
  unfold normalizeSelfReferencingFk
  split <;> rfl

theorem foreignKeyChanges_eq_nil {left right : ForeignKeyInfo} :
    foreignKeyChanges (normalizeSelfReferencingFk own left) (normalizeSelfReferencingFk own right) =
      [] ↔ RowsAgree own left right := by
  rw [normalize_eq left, normalize_eq right]
  simp only [foreignKeyChanges, append_eq_nil_iff, changeIf_eq_nil, normalize_refSchema,
    RowsAgree]
  constructor
  · rintro ⟨⟨⟨⟨⟨column, table⟩, schema⟩, refColumn⟩, onDelete⟩, onUpdate⟩
    refine ⟨column, table, refColumn, ?_, onDelete, onUpdate⟩
    by_cases owned : left.refTable ∈ own
    · exact Or.inl owned
    · rw [if_neg owned, if_neg (table ▸ owned)] at schema
      exact Or.inr schema
  · rintro ⟨column, table, refColumn, schema, onDelete, onUpdate⟩
    refine ⟨⟨⟨⟨⟨column, table⟩, ?_⟩, refColumn⟩, onDelete⟩, onUpdate⟩
    rw [← table]
    split
    · rfl
    · rename_i foreign
      exact schema.resolve_left foreign

theorem diffForeignKeys_self {rows : List ForeignKeyInfo} :
    diffForeignKeys (rows.map (normalizeSelfReferencingFk own))
      (rows.map (normalizeSelfReferencingFk own)) = [] ↔ ConstraintsAgree own rows := by
  unfold diffForeignKeys
  rw [diffItems_self_eq_nil]
  constructor
  · intro unchanged
    -- every row agrees with the last one of its name
    have withLast : ∀ row ∈ rows, ∃ last, RowsAgree own row last ∧
        lookupLast ForeignKeyInfo.name (rows.map (normalizeSelfReferencingFk own)) row.name =
          some (normalizeSelfReferencingFk own last) := by
      intro row member
      have listed := mem_map_of_mem (f := normalizeSelfReferencingFk own) member
      cases found : lookupLast ForeignKeyInfo.name (rows.map (normalizeSelfReferencingFk own))
          row.name with
      | none => exact absurd (normalize_name row) (lookupLast_eq_none.mp found _ listed)
      | some other =>
        obtain ⟨last, _, same⟩ := mem_map.mp (lookupLast_some found).1
        have none := unchanged _ listed rfl other (by rw [normalize_name]; exact found)
        rw [← same, foreignKeyChanges_eq_nil] at none
        exact ⟨last, none, by rw [same]⟩
    intro left leftMember right rightMember sameName
    obtain ⟨last, agrees, found⟩ := withLast left leftMember
    obtain ⟨last', agrees', found'⟩ := withLast right rightMember
    rw [← sameName, found, Option.some.injEq] at found'
    have lasts : RowsAgree own last last' := by
      rw [← foreignKeyChanges_eq_nil, found', foreignKeyChanges_eq_nil]
      exact agrees'.symm.trans agrees'
    exact (agrees.trans lasts).trans agrees'.symm
  · intro agree item member _ other last
    obtain ⟨row, rowMember, rfl⟩ := mem_map.mp member
    obtain ⟨otherMember, sameName⟩ := lookupLast_some last
    obtain ⟨row', rowMember', rfl⟩ := mem_map.mp otherMember
    rw [foreignKeyChanges_eq_nil]
    apply agree row rowMember row' rowMember'
    simpa using sameName.symm

end ForeignKeys

/-! ## Columns -/

variable (settings : ColumnSettings)

section Columns

variable {columns : List ColumnInfo}

theorem positionOf_self (distinct : (columns.map ColumnInfo.name).Nodup) {column : ColumnInfo}
    {index : Nat} (member : (column, index) ∈ columns.zipIdx) :
    positionOf columns column.name = some index := by
  have names : (columns.zipIdx.map fun entry => entry.1.name) = columns.map ColumnInfo.name := by
    rw [show (fun entry : ColumnInfo × Nat => entry.1.name) = ColumnInfo.name ∘ Prod.fst from rfl,
      ← map_map, zipIdx_map_fst]
  unfold positionOf
  rw [lookupLast_of_mem (by rw [names]; exact distinct) member rfl]
  rfl

theorem columnChanges_self (column : ColumnInfo) : columnChanges settings column column = [] := by
  simp [columnChanges, columnTypesEqualForDialects, eqIgnoreAsciiCase]

theorem columnDiffs_self (distinct : (columns.map ColumnInfo.name).Nodup) :
    columnDiffs settings columns columns = [] := by
  have found : ∀ entry ∈ columns.zipIdx,
      lookupLast ColumnInfo.name columns entry.1.name = some entry.1 := by
    intro entry member
    exact lookupLast_of_mem distinct (fst_mem_of_mem_zipIdx member) rfl
  unfold columnDiffs
  rw [append_eq_nil_iff, flatMap_eq_nil_iff, map_eq_nil_iff, filter_eq_nil_iff]
  constructor
  · intro entry member
    simp [diffColumn, found entry member, columnChanges_self, orderChange,
      positionOf_self distinct member]
  · intro entry member
    simp [found entry member]

theorem diffColumns_self (distinct : (columns.map ColumnInfo.name).Nodup) :
    diffColumnsWithDialectOptions settings columns columns = [] := by
  simp [diffColumnsWithDialectOptions, columnDiffs_self settings distinct, matchRenames]

end Columns

/-! ## The whole schema -/

section Schema

variable {normalize : Str → Str} {snapshot : Snapshot} {settings : Settings}

theorem diffNames_self (names : List Str) : diffNames names names = ⟨[], [], names⟩ := by
  have none : (names.filter fun name => !names.contains name) = [] := by
    rw [filter_eq_nil_iff]
    intro name member
    simp [member]
  have all : (names.filter fun name => names.contains name) = names := by
    rw [filter_eq_self]
    intro name member
    simp [member]
  unfold diffNames
  rw [none, all]

theorem commonView_self (name : Str) :
    commonView normalize (selfOptions snapshot settings) name = none := by
  unfold commonView mysqlViewDefinitionsDiffer
  cases ddl : (detailOf (selfOptions snapshot settings).sourceDetails name).bind
      TableSchemaDetail.ddl with
  | none => rfl
  | some text =>
    have target : (detailOf (selfOptions snapshot settings).targetDetails name).bind
      TableSchemaDetail.ddl = some text := ddl
    simp [target]

theorem compareTables_self (settings : Settings) (name : Str) {detail : TableSchemaDetail}
    (member : detail ∈ snapshot.details) :
    (compareTables (selfOptions snapshot settings) name detail detail).diffType = .none ↔
      ConstraintsAgree (tableNames snapshot.tables) detail.foreignKeys := by
  have columns := fun settings => diffColumns_self settings
    (snapshot.columns_distinct detail member)
  have indexes := diffIndexes_self (snapshot.indexes_distinct detail member)
  have triggers := diffTriggers_self (snapshot.triggers_distinct detail member)
  rw [← diffForeignKeys_self]
  simp only [compareTables, columns, indexes, triggers, selfOptions]
  by_cases same : diffForeignKeys
      (detail.foreignKeys.map (normalizeSelfReferencingFk (tableNames snapshot.tables)))
      (detail.foreignKeys.map (normalizeSelfReferencingFk (tableNames snapshot.tables))) = []
  · simp [same]
  · simp [same]

end Schema

/-- A schema has no difference with itself exactly where the rows of each foreign key agree. -/
theorem self_diff_empty_iff (normalize : Str → Str) (snapshot : Snapshot) (settings : Settings) :
    diffSchema normalize (selfOptions snapshot settings) = [] ↔
      ∀ name ∈ tableNames snapshot.tables, ∀ detail,
        detailOf snapshot.details name = some detail →
        ConstraintsAgree (tableNames snapshot.tables) detail.foreignKeys := by
  have views : (viewNames snapshot.tables).filterMap
      (commonView normalize (selfOptions snapshot settings)) = [] := by
    rw [filterMap_eq_nil_iff]
    intro name _
    exact commonView_self name
  have tables : diffSchema normalize (selfOptions snapshot settings) =
      ((tableNames snapshot.tables).filterMap (commonTable (selfOptions snapshot settings))).filter
        fun diff => diff.diffType ≠ .none := by
    simp [diffSchema, selfOptions_sourceTables, selfOptions_targetTables, diffNames_self, views]
  rw [tables, filter_eq_nil_iff]
  constructor
  · intro none name listed detail found
    have member := (lookupLast_some found).1
    rw [← compareTables_self settings name member]
    have reported : commonTable (selfOptions snapshot settings) name =
        some (compareTables (selfOptions snapshot settings) name detail detail) := by
      simp [commonTable, selfOptions, found]
    simpa using none _ (mem_filterMap.mpr ⟨name, listed, reported⟩)
  · intro agree diff listed
    obtain ⟨name, nameListed, reported⟩ := mem_filterMap.mp listed
    cases found : detailOf snapshot.details name with
    | none => simp [commonTable, selfOptions, found] at reported
    | some detail =>
      simp only [commonTable, selfOptions, found, Option.some.injEq] at reported
      have unchanged := (compareTables_self settings name
        (lookupLast_some found).1).mpr (agree name nameListed detail found)
      rw [← reported]
      simpa [selfOptions] using unchanged

/-- A foreign key over the columns `a` and `b`. -/
def compositeRows : List ForeignKeyInfo :=
  [⟨"fk".toList, "a".toList, none, "p".toList, "x".toList, none, none⟩,
    ⟨"fk".toList, "b".toList, none, "p".toList, "y".toList, none, none⟩]

def compositeSnapshot : Snapshot where
  tables := [⟨"t".toList, "TABLE".toList, none, none⟩]
  details := [⟨"t".toList, [], [], compositeRows, [], none⟩]
  tables_distinct := by decide
  columns_distinct := by simp
  indexes_distinct := by simp
  triggers_distinct := by simp

def plainSettings : Settings := ⟨false, false, false, 0, none⟩

theorem composite_key_differs : (diffSchema id (selfOptions compositeSnapshot plainSettings)).map
        (fun diff => (diff.diffType, diff.foreignKeys.map fun rows => rows.map ItemDiff.changes)) =
      [(.modified, some [["column: b → a".toList, "ref column: y → x".toList]])] := by
  decide +kernel

end Dbx.Guarantees.SelfDiff
