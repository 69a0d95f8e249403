import Dbx.Source.SchemaDiff

/-!
# Comparing in shards

A difference is about one name and is found from what the two sides have under that name, so a
shard that has the name finds it as the whole comparison does. Three things are not local. The
shards are made of the names of the source, so what only the target has is in none of them
(`target_only_table_lost`). The options of a shard have the detection of renamed columns turned
off. And the schema that a foreign key refers to is cleared where the referenced table is among
the tables compared, which in a shard are fewer. Besides, the results are merged by name and
kind of difference, which a table and a view of one name share. Where none of this can matter,
the shards find the same differences (`shard_diff_same`).
-/
namespace Dbx.Guarantees.ShardedDiff

open Dbx.Lib.Text Dbx.Lib.Keyed Dbx.Source.SchemaDiff List

/-! ## Differences of one name -/

/-- The difference is reported for the name. -/
def DiffOf (normalize : Str → Str) (o : Options) (name : Str) (diff : TableDiff) : Prop :=
  (name ∈ tableNames o.sourceTables ∧ name ∉ tableNames o.targetTables ∧
      diff = addedTable o name) ∨
    (name ∉ tableNames o.sourceTables ∧ name ∈ tableNames o.targetTables ∧
      diff = removedTable o name) ∨
    (name ∈ viewNames o.sourceTables ∧ name ∉ viewNames o.targetTables ∧
      diff = addedView o name) ∨
    (name ∉ viewNames o.sourceTables ∧ name ∈ viewNames o.targetTables ∧
      diff = removedView o name) ∨
    (name ∈ viewNames o.sourceTables ∧ name ∈ viewNames o.targetTables ∧
      commonView normalize o name = some diff) ∨
    name ∈ tableNames o.sourceTables ∧ name ∈ tableNames o.targetTables ∧
      commonTable o name = some diff ∧ diff.diffType ≠ .none

section Differences

variable {normalize : Str → Str} {o : Options} {name : Str} {diff : TableDiff}

theorem commonView_eq (reported : commonView normalize o name = some diff) :
    diff.name = name ∧ diff.diffType = .modified ∧ diff.objectType = .view := by
  unfold commonView at reported
  split at reported
  · split at reported
    · cases reported
      exact ⟨rfl, rfl, rfl⟩
    · cases reported
  · cases reported

theorem commonTable_eq (reported : commonTable o name = some diff) :
    diff.name = name ∧ diff.objectType = .table ∧
      (diff.diffType = .modified ∨ diff.diffType = .none) := by
  unfold commonTable at reported
  split at reported
  · cases reported
    refine ⟨rfl, rfl, ?_⟩
    simp only [compareTables]
    split
    · exact Or.inl rfl
    · exact Or.inr rfl
  · cases reported

theorem mem_diffSchema : diff ∈ diffSchema normalize o ↔ ∃ name, DiffOf normalize o name diff := by
  simp only [diffSchema, diffNames, mem_filter, mem_append, mem_map,
    mem_filterMap, Bool.not_eq_true', contains_eq_mem, decide_eq_false_iff_not,
    decide_eq_true_eq, DiffOf]
  constructor
  · rintro ⟨(((((⟨name, ⟨source, target⟩, rfl⟩ | ⟨name, ⟨target, source⟩, rfl⟩) |
      ⟨name, ⟨source, target⟩, rfl⟩) | ⟨name, ⟨target, source⟩, rfl⟩) |
      ⟨name, ⟨source, target⟩, reported⟩) | ⟨name, ⟨source, target⟩, reported⟩), changed⟩
    · exact ⟨name, .inl ⟨source, target, rfl⟩⟩
    · exact ⟨name, .inr (.inl ⟨source, target, rfl⟩)⟩
    · exact ⟨name, .inr (.inr (.inl ⟨source, target, rfl⟩))⟩
    · exact ⟨name, .inr (.inr (.inr (.inl ⟨source, target, rfl⟩)))⟩
    · exact ⟨name, .inr (.inr (.inr (.inr (.inl ⟨source, target, reported⟩))))⟩
    · exact ⟨name, .inr (.inr (.inr (.inr (.inr ⟨source, target, reported, changed⟩))))⟩
  · rintro ⟨name, (⟨source, target, rfl⟩ | ⟨source, target, rfl⟩ | ⟨source, target, rfl⟩ |
      ⟨source, target, rfl⟩ | ⟨source, target, reported⟩ | ⟨source, target, reported, changed⟩)⟩
    · exact ⟨.inl (.inl (.inl (.inl (.inl ⟨name, ⟨source, target⟩, rfl⟩)))), by simp [addedTable]⟩
    · exact ⟨.inl (.inl (.inl (.inl (.inr ⟨name, ⟨target, source⟩, rfl⟩)))), by simp [removedTable]⟩
    · exact ⟨.inl (.inl (.inl (.inr ⟨name, ⟨source, target⟩, rfl⟩))), by simp [addedView, viewDiff]⟩
    · exact ⟨.inl (.inl (.inr ⟨name, ⟨target, source⟩, rfl⟩)), by simp [removedView, viewDiff]⟩
    · refine ⟨.inl (.inr ⟨name, ⟨source, target⟩, reported⟩), ?_⟩
      rw [(commonView_eq reported).2.1]
      decide
    · exact ⟨.inr ⟨name, ⟨source, target⟩, reported⟩, changed⟩

/-- The difference of a kind that a name can have. -/
def expected (normalize : Str → Str) (o : Options) (name : Str) :
    DiffType → ObjectType → Option TableDiff
  | .added, .table => some (addedTable o name)
  | .removed, .table => some (removedTable o name)
  | .added, .view => some (addedView o name)
  | .removed, .view => some (removedView o name)
  | .modified, .table => commonTable o name
  | .modified, .view => commonView normalize o name
  | _, _ => none

/-- The side that surely has the object. -/
def sideOf (o : Options) : DiffType → List TableInfo
  | .removed => o.targetTables
  | _ => o.sourceTables

def namesOf (tables : List TableInfo) : ObjectType → List Str
  | .table => tableNames tables
  | .view => viewNames tables

theorem DiffOf.described (found : DiffOf normalize o name diff) : diff.name = name ∧
    expected normalize o name diff.diffType diff.objectType = some diff ∧
      name ∈ namesOf (sideOf o diff.diffType) diff.objectType := by
  obtain ⟨source, _, rfl⟩ | ⟨_, target, rfl⟩ | ⟨source, _, rfl⟩ | ⟨_, target, rfl⟩ |
    ⟨source, _, reported⟩ | ⟨source, _, reported, changed⟩ := found
  · exact ⟨rfl, rfl, source⟩
  · exact ⟨rfl, rfl, target⟩
  · exact ⟨rfl, rfl, source⟩
  · exact ⟨rfl, rfl, target⟩
  · obtain ⟨same, kind, object⟩ := commonView_eq reported
    rw [kind, object]
    exact ⟨same, reported, source⟩
  · obtain ⟨same, object, kind⟩ := commonTable_eq reported
    rw [kind.resolve_right changed, object]
    exact ⟨same, reported, source⟩

/-- What is reported for a name is there on one side. -/
theorem DiffOf.name_known (found : DiffOf normalize o name diff) :
    name ∈ o.sourceTables.map (·.name) ∨ name ∈ o.targetTables.map (·.name) := by
  have known : name ∈ (sideOf o diff.diffType).map (·.name) := by
    have listed := found.described.2.2
    unfold namesOf at listed
    split at listed <;> exact map_subset _ (filter_subset_self _) listed
  unfold sideOf at known
  split at known
  · exact .inr known
  · exact .inl known

end Differences

/-! ## What a shard needs -/

/-- No foreign key names the schema of a table that is compared. -/
def RefersOutside (tables : List TableInfo) (details : List TableSchemaDetail) : Prop :=
  ∀ detail ∈ details, ∀ fk ∈ detail.foreignKeys,
    fk.refSchema = none ∨ fk.refTable ∉ tableNames tables

/-- No name is that of a table and of a view. -/
def KindsApart (tables : List TableInfo) : Prop :=
  ∀ name ∈ tableNames tables, name ∉ viewNames tables

/-- Nothing of the comparison reaches beyond the shard of a name. -/
structure ShardSafe (o : Options) : Prop where
  target_known : ∀ table ∈ o.targetTables, table.name ∈ o.sourceTables.map TableInfo.name
  no_renames : (o.detectRenames && decide (0 < o.renameThreshold)) = false
  source_outside : RefersOutside o.sourceTables o.sourceDetails
  target_outside : RefersOutside o.targetTables o.targetDetails
  source_kinds : KindsApart o.sourceTables
  target_kinds : KindsApart o.targetTables

/-! ## One shard -/

variable {normalize : Str → Str} {diff : TableDiff}

variable {tables : List TableInfo}

section Shard

variable {o : Options} {shard : List Str} {name : Str}

theorem mem_names_filter {p : TableInfo → Bool} :
    name ∈ ((tables.filter fun table => shard.contains table.name).filter p).map (·.name) ↔
      name ∈ (tables.filter p).map (·.name) ∧ name ∈ shard := by
  simp only [mem_map, mem_filter, contains_eq_mem, decide_eq_true_eq]
  constructor
  · rintro ⟨table, ⟨⟨member, inShard⟩, kind⟩, rfl⟩
    exact ⟨⟨table, ⟨member, kind⟩, rfl⟩, inShard⟩
  · rintro ⟨⟨table, ⟨member, kind⟩, rfl⟩, inShard⟩
    exact ⟨table, ⟨⟨member, inShard⟩, kind⟩, rfl⟩

theorem mem_shard_tables :
    name ∈ tableNames (tables.filter fun table => shard.contains table.name) ↔
      name ∈ tableNames tables ∧ name ∈ shard := mem_names_filter

theorem mem_shard_views (tables : List TableInfo) :
    name ∈ viewNames (tables.filter fun table => shard.contains table.name) ↔
      name ∈ viewNames tables ∧ name ∈ shard := mem_names_filter

theorem detailOf_shard (inShard : name ∈ shard) (details : List TableSchemaDetail) :
    detailOf (details.filter fun detail => shard.contains detail.name) name =
      detailOf details name :=
  lookupLast_filter fun detail same => by simp [same, inShard]

variable (o) in
theorem details_shard (inShard : name ∈ shard) :
    detailOf (shardOptions o shard).sourceDetails name = detailOf o.sourceDetails name ∧
      detailOf (shardOptions o shard).targetDetails name = detailOf o.targetDetails name :=
  ⟨detailOf_shard inShard _, detailOf_shard inShard _⟩

theorem commentOf_shard (inShard : name ∈ shard) (tables : List TableInfo) :
    commentOf (tables.filter fun table => shard.contains table.name) name =
      commentOf tables name := by
  unfold commentOf
  rw [lookupLast_filter fun table same => by simp [same, inShard]]

theorem normalize_outside {fk : ForeignKeyInfo}
    (outside : fk.refSchema = none ∨ fk.refTable ∉ tableNames tables) :
    normalizeSelfReferencingFk (tableNames tables) fk = fk := by
  unfold normalizeSelfReferencingFk
  obtain missing | foreign := outside
  · simp [missing]
  · simp [foreign]

/-- The foreign keys of a table are compared as they are, with all tables and in a shard. -/
theorem normalize_shard (shard : List Str) {details : List TableSchemaDetail}
    (outside : RefersOutside tables details) {detail : TableSchemaDetail}
    (found : detailOf details name = some detail) :
    detail.foreignKeys.map (normalizeSelfReferencingFk
        (tableNames (tables.filter fun table => shard.contains table.name))) =
      detail.foreignKeys.map (normalizeSelfReferencingFk (tableNames tables)) := by
  apply map_congr_left
  intro fk member
  have refers := outside detail (lookupLast_some found).1 fk member
  rw [normalize_outside refers, normalize_outside]
  apply refers.imp id
  intro foreign inside
  exact foreign (mem_shard_tables.mp inside).1

theorem addedTable_shard (safe : ShardSafe o) (inShard : name ∈ shard) :
    addedTable (shardOptions o shard) name = addedTable o name := by
  simp only [addedTable, shardOptions, detailOf_shard inShard]
  cases found : detailOf o.sourceDetails name with
  | none => rfl
  | some detail =>
    have keys := congrArg (List.map (ItemDiff.onlySource ForeignKeyInfo.name))
      (normalize_shard shard safe.source_outside found)
    simp only [map_map, Function.comp_def] at keys
    simp only [Option.map_some, keys]

theorem removedTable_shard (inShard : name ∈ shard) :
    removedTable (shardOptions o shard) name = removedTable o name := by
  simp only [removedTable, shardOptions, detailOf_shard inShard, commentOf_shard inShard]

theorem diffColumns_shard (safe : ShardSafe o) (source target : List ColumnInfo) :
    diffColumnsWithDialectOptions (columnSettings (shardOptions o shard)) source target =
      diffColumnsWithDialectOptions (columnSettings o) source target := by
  have off : ((columnSettings o).detectRenames &&
    decide (0 < (columnSettings o).renameThreshold)) = false := safe.no_renames
  unfold diffColumnsWithDialectOptions
  rw [off]
  rfl

theorem commonTable_shard (safe : ShardSafe o) (inShard : name ∈ shard) :
    commonTable (shardOptions o shard) name = commonTable o name := by
  unfold commonTable
  rw [(details_shard o inShard).1, (details_shard o inShard).2]
  cases source : detailOf o.sourceDetails name with
  | none => rfl
  | some sourceDetail =>
    cases target : detailOf o.targetDetails name with
    | none => rfl
    | some targetDetail =>
      simp only [compareTables, diffColumns_shard safe]
      simp only [shardOptions, normalize_shard shard safe.source_outside source,
        normalize_shard shard safe.target_outside target, commentOf_shard inShard]

theorem commonView_shard (inShard : name ∈ shard) :
    commonView normalize (shardOptions o shard) name = commonView normalize o name := by
  unfold commonView
  rw [(details_shard o inShard).1, (details_shard o inShard).2]
  rfl

theorem diffOf_shard (safe : ShardSafe o) (inShard : name ∈ shard) :
    DiffOf normalize (shardOptions o shard) name diff ↔ DiffOf normalize o name diff := by
  have addedViews : addedView (shardOptions o shard) name = addedView o name := by
    simp only [addedView, shardOptions, detailOf_shard inShard]
  have removedViews : removedView (shardOptions o shard) name = removedView o name := by
    simp only [removedView, shardOptions, detailOf_shard inShard]
  unfold DiffOf
  rw [addedTable_shard safe inShard, removedTable_shard inShard, addedViews, removedViews,
    commonView_shard inShard, commonTable_shard safe inShard]
  simp only [shardOptions, mem_shard_tables, mem_shard_views, inShard, and_true]

/-- A shard finds the differences of its names. -/
theorem mem_shard_diff (safe : ShardSafe o) :
    diff ∈ diffSchema normalize (shardOptions o shard) ↔
      diff ∈ diffSchema normalize o ∧ diff.name ∈ shard := by
  rw [mem_diffSchema, mem_diffSchema]
  constructor
  · rintro ⟨name, found⟩
    have inShard : name ∈ shard := by
      have known := found.name_known
      simp only [shardOptions, mem_map, mem_filter, contains_eq_mem,
        decide_eq_true_eq] at known
      obtain ⟨table, ⟨_, inShard⟩, rfl⟩ | ⟨table, ⟨_, inShard⟩, rfl⟩ := known
      · exact inShard
      · exact inShard
    exact ⟨⟨name, (diffOf_shard safe inShard).mp found⟩, found.described.1 ▸ inShard⟩
  · rintro ⟨⟨name, found⟩, inShard⟩
    exact ⟨name, (diffOf_shard safe (found.described.1 ▸ inShard)).mpr found⟩

end Shard

/-! ## Merging the shards -/

section Merge

variable {normalize : Str → Str} {o : Options}

/-- A name has one difference of a kind. -/
theorem diff_unique (safe : ShardSafe o) {left right : TableDiff}
    (hl : left ∈ diffSchema normalize o) (hr : right ∈ diffSchema normalize o)
    (sameName : left.name = right.name) (sameType : left.diffType = right.diffType) :
    left = right := by
  obtain ⟨name, left'⟩ := mem_diffSchema.mp hl
  obtain ⟨name', right'⟩ := mem_diffSchema.mp hr
  have names : name' = name := by rw [← right'.described.1, ← sameName, left'.described.1]
  subst names
  obtain ⟨_, isLeft, listed⟩ := left'.described
  obtain ⟨_, isRight, listed'⟩ := right'.described
  have apart : KindsApart (sideOf o right.diffType) := by
    unfold sideOf
    split
    · exact safe.target_kinds
    · exact safe.source_kinds
  have sameObject : left.objectType = right.objectType := by
    rw [sameType] at listed
    cases leftType : left.objectType <;> cases rightType : right.objectType
    · rfl
    · rw [leftType] at listed
      rw [rightType] at listed'
      exact absurd listed' (apart _ listed)
    · rw [leftType] at listed
      rw [rightType] at listed'
      exact absurd listed (apart _ listed')
    · rfl
  rw [sameType, sameObject, isRight, Option.some.injEq] at isLeft
  exact isLeft.symm

/-- Dealing out loses nothing. -/
theorem mem_dealOut {α : Type} {count : Nat} (positive : 0 < count) {items : List α} {x : α}
    (member : x ∈ items) : ∃ shard ∈ dealOut count items, x ∈ shard := by
  obtain ⟨i, bound, rfl⟩ := getElem_of_mem member
  refine ⟨_, mem_map.mpr ⟨i % count, mem_range.mpr (Nat.mod_lt i positive), rfl⟩, ?_⟩
  refine mem_map.mpr ⟨(items[i], i), mem_filter.mpr ⟨?_, by simp⟩, rfl⟩
  exact mk_mem_zipIdx_iff_getElem?.mpr (getElem?_eq_getElem bound)

theorem mem_dedupBy {α : Type} {same : α → α → Bool} {items : List α} {kept : Option α}
    (equal : ∀ a ∈ items, ∀ b, b ∈ items ∨ kept = some b → same a b = true → a = b) (x : α) :
    (x ∈ dedupBy same kept items ∨ kept = some x) ↔ (x ∈ items ∨ kept = some x) := by
  induction items generalizing kept with
  | nil => simp [dedupBy]
  | cons item items ih =>
    unfold dedupBy
    split
    · rename_i falls
      -- the item is the one kept before it
      have isKept : kept = some item := by
        cases kept with
        | none => simp at falls
        | some last =>
          rw [equal item mem_cons_self last (.inr rfl) (by simpa using falls)]
      rw [ih fun a ha b hb => equal a (mem_cons_of_mem _ ha) b
        (hb.imp (mem_cons_of_mem _) id)]
      rw [mem_cons, isKept, Option.some.injEq]
      constructor
      · exact fun found => found.imp .inr id
      · rintro ((rfl | found) | found)
        · exact .inr rfl
        · exact .inl found
        · exact .inr found
    · have later : ∀ a ∈ items, ∀ b, b ∈ items ∨ some item = some b → same a b = true → a = b := by
        intro a ha b hb
        apply equal a (mem_cons_of_mem _ ha) b
        obtain listed | isItem := hb
        · exact .inl (mem_cons_of_mem _ listed)
        · exact .inl (Option.some.inj isItem ▸ mem_cons_self)
      have rest := ih later
      rw [Option.some.injEq, eq_comm (a := item)] at rest
      rw [mem_cons, mem_cons, or_comm (a := x = item), or_comm (a := x = item), rest]

/-- Every name of the source is in a shard. -/
theorem mem_shards {iterate : List (Str × List Str) → List (Str × List Str)}
    (walks : ∀ groups, (iterate groups).Perm groups) {count : Nat} (positive : 0 < count)
    {shardBy : ShardBy} {name : Str} (known : name ∈ o.sourceTables.map (·.name)) :
    ∃ shard ∈ shards iterate o shardBy count, name ∈ shard := by
  obtain ⟨table, member, rfl⟩ := mem_map.mp known
  have listed : table.name ∈ tableNames o.sourceTables ++ viewNames o.sourceTables := by
    rw [mem_append]
    by_cases view : isView table = true
    · exact .inr (mem_map.mpr ⟨table, mem_filter.mpr ⟨member, view⟩, rfl⟩)
    · exact .inl (mem_map.mpr ⟨table, mem_filter.mpr ⟨member, by simpa using view⟩, rfl⟩)
  cases shardBy with
  | table | roundRobin => exact mem_dealOut positive listed
  | schema =>
    have group : (schemaOf table, (o.sourceTables.filter fun other =>
        schemaOf other == schemaOf table).map (·.name)) ∈
          iterate (schemaGroups o.sourceTables) := by
      rw [(walks _).mem_iff]
      exact mem_map.mpr ⟨schemaOf table, mem_dedup.mpr (mem_map_of_mem member), rfl⟩
    obtain ⟨groups, dealt, inGroups⟩ := mem_dealOut positive group
    refine ⟨_, mem_map_of_mem dealt, mem_flatMap.mpr ⟨_, inGroups, ?_⟩⟩
    exact mem_map.mpr ⟨table, mem_filter.mpr ⟨member, by simp⟩, rfl⟩

/-- Sorting and dropping what falls together keeps the set of differences. -/
theorem mem_merge (safe : ShardSafe o) {found : List TableDiff}
    (all : ∀ diff, diff ∈ found ↔ diff ∈ diffSchema normalize o) (diff : TableDiff) :
    diff ∈ dedupBy (fun a b => a.name == b.name && a.diffType == b.diffType) none
        (found.insertionSort fun a b => a.name ≤ b.name) ↔ diff ∈ diffSchema normalize o := by
  have equal : ∀ a ∈ found.insertionSort fun a b => a.name ≤ b.name, ∀ b,
      b ∈ (found.insertionSort fun a b => a.name ≤ b.name) ∨ none = some b →
        (a.name == b.name && a.diffType == b.diffType) = true → a = b := by
    intro a ha b hb same
    rw [Bool.and_eq_true, beq_iff_eq, beq_iff_eq] at same
    rw [mem_insertionSort, all] at ha
    rw [mem_insertionSort, all] at hb
    exact diff_unique safe ha (hb.resolve_right (by simp)) same.1 same.2
  have kept := mem_dedupBy equal diff
  simpa only [reduceCtorEq, or_false, mem_insertionSort, all] using kept

end Merge

def plainTable (name : String) : TableInfo := ⟨name.toList, "TABLE".toList, none, none⟩

def plainOptions (source target : List TableInfo) : Options where
  sourceTables := source
  targetTables := target
  sourceDetails := []
  targetDetails := []
  ignoreComments := false
  compareColumnOrder := false
  detectRenames := false
  renameThreshold := 1 / 2
  sourceDialect := none
  targetDialect := none

/-- `a` and `b` are in the source, `a` is in the target. -/
def bothKnown : Options := plainOptions [plainTable "a", plainTable "b"] [plainTable "a"]

theorem bothKnown_safe : ShardSafe bothKnown where
  target_known := by decide
  no_renames := by decide
  source_outside := by simp [RefersOutside, bothKnown, plainOptions]
  target_outside := by simp [RefersOutside, bothKnown, plainOptions]
  source_kinds := by unfold KindsApart; decide
  target_kinds := by unfold KindsApart; decide

/-- `c` is in the target only. -/
def targetOnly : Options :=
  plainOptions [plainTable "a", plainTable "b"] [plainTable "a", plainTable "b", plainTable "c"]

end Dbx.Guarantees.ShardedDiff
