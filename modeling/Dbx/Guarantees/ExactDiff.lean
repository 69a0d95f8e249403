import Dbx.Guarantees.SyncPlan

/-!
# A comparison is an exact diff

`compare_data_rows` (`data_compare.rs` 645–745) is read as a patch of the target table: take
the removed keys out, set the changed cells to their source values, put the added rows in.
Keys are compared by their text, cells by the equality of the JSON library, of which only
reflexivity is used.
-/
namespace Dbx.Guarantees.ExactDiff

open Dbx.Lib.Text Dbx.Source Dbx.Source.DataCompare Dbx.Guarantees.SyncPlan List Option

/-- A table as a map from keys to rows, a row being a map from columns to cells. -/
abbrev TableMap := Str → Option (Str → Option Value)

def tableMap (columns : List Str) (rows : RowsByKey) : TableMap := fun key =>
  (rows.get key).map fun row => (rowObject columns row).get

/-- The table after the changes of a diff. -/
def patched (diff : CompareResult) (target : TableMap) : TableMap := fun key =>
  match diff.added.find? (·.key == key) with
  | some row => some row.values.get
  | none =>
    if (diff.removed.find? (·.key == key)).isSome then none
    else (target key).map fun cells column =>
      match (diff.modified.find? (·.key == key)).bind fun row =>
          row.changes.find? (·.column == column) with
      | some change => some change.source
      | none => cells column

variable (same : Value → Value → Bool) (columns keyColumns : List Str)

/-- The tables have the same keys, columns and cells. -/
def SameTable (table other : TableMap) : Prop :=
  ∀ key, Option.Rel (fun row row' => ∀ column,
    Option.Rel (fun cell cell' => same cell cell' = true) (row column) (row' column))
    (table key) (other key)

def Differs (source target : FetchedRow) (column : Str) : Bool :=
  !keyColumns.contains column && !same (valueAt columns source column) (valueAt columns target column)

structure Exact (source target : RowsByKey) (diff : CompareResult) : Prop where
  patches : SameTable same (tableMap columns source) (patched diff (tableMap columns target))
  disjoint : [diff.added.map (·.key), diff.removed.map (·.key),
    diff.modified.map (·.key)].Pairwise List.Disjoint
  changes : ∀ row ∈ diff.modified, ∃ s t, (row.key, s) ∈ source ∧ (row.key, t) ∈ target ∧
    row.changes = (columns.filter (Differs same columns keyColumns s t)).map fun column =>
      ⟨column, valueAt columns s column, valueAt columns t column⟩

/-! ## Lookups -/

variable {same columns keyColumns} {source target : RowsByKey} {key : Str}

theorem find_filterMap {α : Type} {f : Str × FetchedRow → Option α} {keyOf : α → Str}
    (keeps : ∀ entry a, f entry = some a → keyOf a = entry.1)
    (distinct : (source.map (·.1)).Nodup) :
    (source.filterMap f).find? (keyOf · == key) =
      (source.get key).bind fun row => f (key, row) := by
  induction source with
  | nil => rfl
  | cons entry rest ih =>
    obtain ⟨fresh, distinct⟩ := nodup_cons.mp distinct
    have tail := ih distinct
    have unfolded : RowsByKey.get (entry :: rest) key =
        if key = entry.1 then some entry.2 else RowsByKey.get rest key := by
      unfold RowsByKey.get
      rw [lookup_cons]
      by_cases here : key = entry.1
      · simp [here]
      · rw [beq_false_of_ne here, if_neg here]
    rw [unfolded]
    by_cases here : key = entry.1
    · subst here
      have missing : RowsByKey.get rest entry.1 = none :=
        not_isSome_iff_eq_none.mp (mt get_isSome.mp fresh)
      rw [missing] at tail
      cases value : f entry with
      | none => simpa [value] using tail
      | some a => simp [value, keeps entry a value]
    · cases value : f entry with
      | none => simpa [value, here] using tail
      | some a => simpa [value, keeps entry a value, here, Ne.symm here] using tail

theorem find_addedRows (distinct : (source.map (·.1)).Nodup) :
    (addedRows columns keyColumns source target).find? (·.key == key) =
      (source.get key).bind fun row =>
        if (target.get key).isSome then none else some (comparedRow columns keyColumns key row) := by
  refine find_filterMap (fun entry a made => ?_) distinct
  dsimp only at made
  split at made
  · cases made
  · cases made
    rfl

theorem find_change (distinct : (source.map (·.1)).Nodup) (column : Str) :
    (((modifiedRows same columns keyColumns source target).find? (·.key == key)).bind fun row =>
        row.changes.find? (·.column == column)) =
      (source.get key).bind fun row => (target.get key).bind fun other =>
        (changedCells same columns keyColumns row other).find? (·.column == column) := by
  unfold modifiedRows
  rw [find_filterMap (fun entry a made => ?_) distinct]
  · cases source.get key with
    | none => rfl
    | some row =>
      dsimp only [bind_some]
      cases target.get key with
      | none => rfl
      | some other => by_cases h : changedCells same columns keyColumns row other = [] <;> simp [h]
  · obtain ⟨other, -, made⟩ := bind_eq_some_iff.mp made
    dsimp only at made
    split at made
    · cases made
    · cases made
      rfl

theorem find_map_column {f : Str → ChangedCell} (names : ∀ column, (f column).column = column)
    (listed : List Str) (column : Str) :
    (listed.map f).find? (·.column == column) =
      if column ∈ listed then some (f column) else none := by
  induction listed with
  | nil => rfl
  | cons head rest ih =>
    rw [map_cons, find?_cons, names]
    by_cases here : head = column
    · simp [here]
    · simp [beq_false_of_ne here, ih, Ne.symm here]

theorem changedCells_eq {s t : FetchedRow} : changedCells same columns keyColumns s t =
    (columns.filter (Differs same columns keyColumns s t)).map fun column =>
      ⟨column, valueAt columns s column, valueAt columns t column⟩ := by
  unfold changedCells
  rw [filterMap_filter, ← filterMap_eq_map, filterMap_filter]
  refine filterMap_congr fun column member => ?_
  obtain ⟨index, found⟩ := columnIndex_isSome member
  by_cases keyed : keyColumns.contains column
  · simp only [Differs, keyed, Bool.not_true, Bool.false_and]
    rfl
  · cases equal : same (rowValue s index) (rowValue t index) <;>
      simp [Differs, valueAt, found, equal]

/-! ## The patch -/

theorem patched_cell (refl : ∀ cell, same cell cell = true) {s t : FetchedRow}
    (keys : keyForRow columns keyColumns s = keyForRow columns keyColumns t) {column : Str} :
    Option.Rel (fun cell cell' => same cell cell' = true) ((rowObject columns s).get column)
      (match (changedCells same columns keyColumns s t).find? (·.column == column) with
        | some change => some change.source
        | none => (rowObject columns t).get column) := by
  rw [changedCells_eq, find_map_column fun _ => rfl, rowObject_get, rowObject_get]
  cases found : columnIndex columns column with
  | none =>
    have absent : column ∉ columns.filter (Differs same columns keyColumns s t) := fun member => by
      obtain ⟨index, some⟩ := columnIndex_isSome (mem_filter.mp member).1
      rw [some] at found
      cases found
    rw [if_neg absent]
    exact .none
  | some index =>
    have value (row : FetchedRow) : valueAt columns row column = rowValue row index := by
      simp [valueAt, found]
    by_cases listed : column ∈ columns.filter (Differs same columns keyColumns s t)
    · rw [if_pos listed, value]
      exact .some (refl _)
    rw [if_neg listed]
    refine .some ?_
    have member := mem_of_getElem? (columnIndex_some found)
    -- A column that is not listed is a key column or has the same cell.
    have unlisted : ¬ Differs same columns keyColumns s t column = true :=
      fun differs => listed (mem_filter.mpr ⟨member, differs⟩)
    rw [← value, ← value]
    by_cases keyed : column ∈ keyColumns
    · rw [map_inj_left.mp ((keyForRow_inj columns).mp keys) column keyed]
      exact refl _
    · simpa [Differs, keyed] using unlisted

/-- The rows of one side have distinct keys and are stored under them. -/
structure Indexed (columns keyColumns : List Str) (rows : RowsByKey) : Prop where
  distinct : (rows.map (·.1)).Nodup
  keyed : ∀ entry ∈ rows, keyForRow columns keyColumns entry.2 = entry.1

theorem Indexed.of_get (indexed : Indexed columns keyColumns source) {row : FetchedRow}
    (found : source.get key = some row) :
    (key, row) ∈ source ∧ keyForRow columns keyColumns row = key := by
  obtain ⟨front, rest, rfl, -⟩ := lookup_eq_some_iff.mp found
  have member : (key, row) ∈ front ++ (key, row) :: rest := by simp
  exact ⟨member, indexed.keyed _ member⟩

theorem patched_table (refl : ∀ cell, same cell cell = true)
    (indexed : Indexed columns keyColumns source) (indexed' : Indexed columns keyColumns target) :
    SameTable same (tableMap columns source) (patched
      ⟨addedRows columns keyColumns source target, removedRows columns keyColumns source target,
        modifiedRows same columns keyColumns source target⟩ (tableMap columns target)) := by
  intro key
  unfold tableMap patched
  simp only [find_addedRows indexed.distinct, find_change indexed.distinct]
  rw [show removedRows columns keyColumns source target =
    addedRows columns keyColumns target source from rfl, find_addedRows indexed'.distinct]
  cases s : source.get key with
  | none =>
    cases t : target.get key with
    | none | some => exact .none
  | some row =>
    cases t : target.get key with
    | none =>
      refine .some fun column => ?_
      change Option.Rel _ ((rowObject columns row).get column) ((rowObject columns row).get column)
      cases (rowObject columns row).get column with
      | none => exact .none
      | some cell => exact .some (refl cell)
    | some other =>
      refine .some fun column => patched_cell refl ?_
      rw [(indexed.of_get s).2, (indexed'.of_get t).2]

theorem mem_addedKeys : key ∈ (addedRows columns keyColumns source target).map (·.key) →
    (source.get key).isSome = true ∧ target.get key = none := by
  intro member
  obtain ⟨row, made, rfl⟩ := mem_map.mp member
  obtain ⟨entry, inside, made⟩ := mem_filterMap.mp made
  dsimp only at made
  split at made
  · cases made
  rename_i missing
  cases made
  exact ⟨get_isSome.mpr (mem_map_of_mem inside),
    not_isSome_iff_eq_none.mp missing⟩

theorem mem_modifiedRows {row : ModifiedRow} (indexed : Indexed columns keyColumns target)
    (member : row ∈ modifiedRows same columns keyColumns source target) :
    ∃ s t, (row.key, s) ∈ source ∧ (row.key, t) ∈ target ∧
      row.changes = changedCells same columns keyColumns s t := by
  obtain ⟨⟨key, s⟩, inside, made⟩ := mem_filterMap.mp member
  obtain ⟨t, found, made⟩ := bind_eq_some_iff.mp made
  dsimp only at made
  split at made
  · cases made
  · cases made
    exact ⟨s, t, inside, (indexed.of_get found).1, rfl⟩

theorem exact_diff (refl : ∀ cell, same cell cell = true)
    (indexed : Indexed columns keyColumns source) (indexed' : Indexed columns keyColumns target) :
    Exact same columns keyColumns source target
      ⟨addedRows columns keyColumns source target, removedRows columns keyColumns source target,
        modifiedRows same columns keyColumns source target⟩ := by
  have modified {key : Str}
      (member : key ∈ (modifiedRows same columns keyColumns source target).map (·.key)) :
      (source.get key).isSome = true ∧ (target.get key).isSome = true := by
    obtain ⟨row, changed, rfl⟩ := mem_map.mp member
    obtain ⟨s, t, inSource, inTarget, -⟩ := mem_modifiedRows indexed' changed
    exact ⟨get_isSome.mpr (mem_map_of_mem inSource),
      get_isSome.mpr (mem_map_of_mem inTarget)⟩
  refine ⟨patched_table refl indexed indexed', ?_, fun row member => ?_⟩
  · simp only [pairwise_cons, mem_cons, not_mem_nil, or_false, forall_eq_or_imp,
      forall_eq, List.Pairwise.nil, false_imp_iff, implies_true, and_true]
    refine ⟨⟨fun key added removed => ?_, fun key added changed => ?_⟩, fun key removed changed => ?_⟩
    · simpa [(mem_addedKeys added).2] using (mem_addedKeys removed).1
    · simpa [(mem_addedKeys added).2] using (modified changed).2
    · simpa [(mem_addedKeys removed).2] using (modified changed).1
  · obtain ⟨s, t, inSource, inTarget, changes⟩ := mem_modifiedRows indexed' member
    exact ⟨s, t, inSource, inTarget, changes.trans changedCells_eq⟩

/-! ## A comparison -/

/-- The serialised key values of a row. -/
def keyTexts (columns keyColumns : List Str) (row : FetchedRow) : List Str :=
  keyColumns.map fun column => (valueAt columns row column).jsonStringify

theorem nodup_keyTexts {rows : List FetchedRow} :
    (rows.map (keyForRow columns keyColumns)).Nodup ↔ (rows.map (keyTexts columns keyColumns)).Nodup := by
  unfold List.Nodup
  rw [pairwise_map, pairwise_map]
  refine List.Pairwise.iff fun row row' => not_congr ⟨fun same => ?_, congrArg (joinWith _)⟩
  exact map_inj_left.mpr fun column member => congrArg Value.jsonStringify
    (map_inj_left.mp ((keyForRow_inj columns).mp same) column member)

theorem indexed_entries {rows : List FetchedRow}
    (distinct : (rows.map (keyForRow columns keyColumns)).Nodup) :
    Indexed columns keyColumns (rows.map (entryOf columns keyColumns)) := by
  refine ⟨by rwa [List.map_map], fun entry member => ?_⟩
  obtain ⟨row, -, rfl⟩ := mem_map.mp member
  simp only [entryOf, keyForRow, valueAt_normalizeRowLen]

/-- A comparison that succeeds is an exact diff. It fails exactly without a key column or when
a side repeats a key. -/
theorem compare_is_exact (refl : ∀ cell, same cell cell = true)
    (sourceRows targetRows : List FetchedRow) :
    (∀ diff, compareDataRowsBy same columns keyColumns sourceRows targetRows = .ok diff →
      Exact same columns keyColumns (sourceRows.map (entryOf columns keyColumns))
        (targetRows.map (entryOf columns keyColumns)) diff) ∧
    ((∃ e, compareDataRowsBy same columns keyColumns sourceRows targetRows = .error e) ↔
      keyColumns = [] ∨ ¬ (sourceRows.map (keyTexts columns keyColumns)).Nodup ∨
        ¬ (targetRows.map (keyTexts columns keyColumns)).Nodup) := by
  constructor
  · intro diff compared
    obtain ⟨-, sourceDistinct, targetDistinct, rfl⟩ := (compareDataRows_ok same).mp compared
    exact exact_diff refl (indexed_entries sourceDistinct) (indexed_entries targetDistinct)
  · have ok {diff} := @compareDataRows_ok diff keyColumns columns sourceRows targetRows same
    rw [nodup_keyTexts, nodup_keyTexts] at ok
    cases compared : compareDataRowsBy same columns keyColumns sourceRows targetRows with
    | ok diff =>
      obtain ⟨keyed, distinct, distinct', -⟩ := ok.mp compared
      simp [keyed, distinct, distinct']
    | error e =>
      refine iff_of_true ⟨e, rfl⟩ (by_contra fun all => ?_)
      simp only [not_or, not_not] at all
      rw [ok.mpr ⟨all.1, all.2.1, all.2.2, rfl⟩] at compared
      cases compared

/-- A changed cell, and a short row that only the source has. -/
def sampleDiff : CompareResult :=
  let id := "id".toList
  let v := "v".toList
  ⟨[⟨"false".toList, [(id, .bool false)], [(id, .bool false), (v, .null)]⟩], [],
    [⟨"true".toList, [(id, .bool true)], [(id, .bool true), (v, .bool true)],
      [(id, .bool true), (v, .null)], [⟨v, .bool true, .null⟩]⟩]⟩

theorem sample_is_exact :
    Exact (fun cell other => cell == other) ["id".toList, "v".toList] ["id".toList]
      [("true".toList, [.bool true, .bool true]), ("false".toList, [.bool false, .null])]
      [("true".toList, [.bool true, .null])] sampleDiff :=
  (compare_is_exact (by simp) [[.bool true, .bool true], [.bool false]]
    [[.bool true, .null]]).1 sampleDiff (by decide)

end Dbx.Guarantees.ExactDiff
