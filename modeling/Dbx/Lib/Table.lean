import Mathlib.Data.List.Induction
import Mathlib.Data.List.Nodup
import Mathlib.Data.List.Perm.Basic

/-!
# Keyed tables

A table is a list of rows, a row gives every column a value or NULL (`none`). A
schema names the key columns and the constraint on single rows. A statement is
refused when its result would repeat a key or hold a row that breaks the
constraint, or when an insertion lists a column twice; the rows keep their places
otherwise.

The results say what runs of statements that select rows by their key do: updates
one by one (`run_edits_iff`), updates joined into one statement (`exec_joined`,
`run_batches`), deletions (`run_deletes`) and insertions (`run_inserts_iff`). Updates
are undone by updates in the same order exactly if no updated row takes over the old key
of another one (`valid_drop_iff`, `map_undone`).
-/
namespace Dbx.Lib.Table

open List Option Function

set_option linter.unusedSectionVars false

abbrev Row (C V : Type) := C → Option V

section

variable {C V : Type} [DecidableEq C] [DecidableEq V]

/-- The first value listed for a column. -/
def valueIn (sets : List (C × Option V)) (column : C) : Option (Option V) :=
  sets.findSome? fun set => if set.1 = column then some set.2 else none

/-- Replaces the cells named in the list; the last entry of a column counts. -/
def assign (sets : List (C × Option V)) (row : Row C V) : Row C V := fun column =>
  (valueIn sets.reverse column).getD (row column)

/-- The row with the listed cells and NULL elsewhere. -/
def rowOf (cells : List (C × Option V)) : Row C V := assign cells fun _ => none

variable {sets : List (C × Option V)} {column : C}

theorem valueIn_eq_some (nodup : (sets.map (·.1)).Nodup) {value : Option V} :
    valueIn sets column = some value ↔ (column, value) ∈ sets := by
  unfold valueIn
  induction sets with
  | nil => simp
  | cons head rest ih =>
    obtain ⟨first, firstValue⟩ := head
    simp only [map_cons, nodup_cons] at nodup
    by_cases equal : first = column
    · subst equal
      have absent : (first, value) ∉ rest := fun member =>
        nodup.1 (mem_map_of_mem member)
      simp [absent, eq_comm]
    · simp [equal, Ne.symm equal, ih nodup.2]

/-- Where no column is listed twice, the order of the entries does not matter. -/
theorem valueIn_reverse (nodup : (sets.map (·.1)).Nodup) (column : C) :
    valueIn sets.reverse column = valueIn sets column := by
  have nodup' : (sets.reverse.map (·.1)).Nodup := by
    rw [map_reverse, nodup_reverse]
    exact nodup
  apply ext
  intro value
  rw [valueIn_eq_some nodup', valueIn_eq_some nodup, mem_reverse]

theorem assign_of_mem (nodup : (sets.map (·.1)).Nodup) {value : Option V}
    (member : (column, value) ∈ sets) (row : Row C V) : assign sets row column = value := by
  rw [assign, valueIn_reverse nodup, (valueIn_eq_some nodup).mpr member, getD_some]

theorem assign_of_notMem (absent : column ∉ sets.map (·.1)) {row : Row C V} :
    assign sets row column = row column := by
  have notListed : valueIn sets.reverse column = none := by
    unfold valueIn
    rw [findSome?_eq_none_iff]
    intro set member
    rw [if_neg]
    intro same
    exact absent (mem_map.mpr ⟨set, mem_reverse.mp member, same⟩)
  rw [assign, notListed, getD_none]

theorem assign_assign (sets : List (C × Option V)) (row : Row C V) :
    assign sets (assign sets row) = assign sets row := by
  funext column
  unfold assign
  cases valueIn sets.reverse column <;> rfl

inductive Statement (C V : Type) where
  | update (sets : List (C × Option V)) (selects : Row C V → Bool)
  | delete (selects : Row C V → Bool)
  | insert (tuples : List (List (C × Option V)))

structure Schema (C V : Type) where
  key : List C
  rowOk : Row C V → Bool

namespace Schema

variable (s : Schema C V)

def keyOf (row : Row C V) : List (Option V) := s.key.map row

/-- No key repeats and every row meets the constraint. -/
def Valid (rows : List (Row C V)) : Prop :=
  (rows.map s.keyOf).Nodup ∧ ∀ row ∈ rows, s.rowOk row = true

instance (rows : List (Row C V)) : Decidable (s.Valid rows) :=
  inferInstanceAs (Decidable (_ ∧ _))

/-- A result is kept if it is valid. -/
def accept (rows : List (Row C V)) : Option (List (Row C V)) :=
  if s.Valid rows then some rows else none

def exec : Statement C V → List (Row C V) → Option (List (Row C V))
  | .update sets selects, rows =>
    s.accept (rows.map fun row => if selects row then assign sets row else row)
  | .delete selects, rows => s.accept (rows.filter fun row => !selects row)
  | .insert tuples, rows =>
    if ∀ tuple ∈ tuples, (tuple.map (·.1)).Nodup then s.accept (rows ++ tuples.map rowOf) else none

def run : List (Statement C V) → List (Row C V) → Option (List (Row C V))
  | [], rows => some rows
  | statement :: statements, rows => (s.exec statement rows).bind (run statements)

variable {s}

variable {rows rows' : List (Row C V)} {row : Row C V}

theorem accept_some : s.accept rows = some rows' ↔ s.Valid rows ∧ rows' = rows := by
  unfold accept
  split <;> simp_all [eq_comm]

/-- Whatever a statement leaves behind is valid. -/
theorem exec_valid {statement : Statement C V} (ok : s.exec statement rows = some rows') :
    s.Valid rows' := by
  cases statement with
  | update | delete =>
    rw [exec, accept_some] at ok
    exact ok.2 ▸ ok.1
  | insert tuples =>
    rw [exec] at ok
    split at ok
    · rw [accept_some] at ok
      exact ok.2 ▸ ok.1
    · cases ok

theorem run_valid {statements : List (Statement C V)} (valid : s.Valid rows)
    (ok : s.run statements rows = some rows') : s.Valid rows' := by
  induction statements generalizing rows with
  | nil =>
    simp only [run, some.injEq] at ok
    exact ok ▸ valid
  | cons statement statements ih =>
    rw [run, bind_eq_some_iff] at ok
    obtain ⟨between, first, rest⟩ := ok
    exact ih (exec_valid first) rest

theorem run_append (first second : List (Statement C V)) (rows : List (Row C V)) :
    s.run (first ++ second) rows = (s.run first rows).bind (s.run second) := by
  induction first generalizing rows with
  | nil => rfl
  | cons statement first ih =>
    simp only [cons_append, run, bind_assoc]
    congr 1
    funext next
    exact ih next

theorem run_concat (first : List (Statement C V)) (last : Statement C V) (rows : List (Row C V)) :
    s.run (first ++ [last]) rows = (s.run first rows).bind (s.exec last) := by
  rw [run_append]
  congr 1
  funext next
  simp [run]

/-- The key after an assignment depends on the key before it only. -/
theorem keyOf_assign_congr {row' : Row C V} (h : s.keyOf row = s.keyOf row')
    (sets : List (C × Option V)) : s.keyOf (assign sets row) = s.keyOf (assign sets row') := by
  simp only [keyOf, map_inj_left] at h ⊢
  intro column member
  simp only [assign, h column member]

/-! ## Rows found by their key -/

theorem eq_of_keyOf (nodup : (rows.map s.keyOf).Nodup) {row' : Row C V} (member : row ∈ rows)
    (member' : row' ∈ rows) (h : s.keyOf row = s.keyOf row') : row = row' :=
  inj_on_of_nodup_map nodup member member' h

/-- Edits that keep the keys distinct move no two rows to the same key. -/
theorem Valid.eq_of_edited {edit : Row C V → Row C V} (valid : s.Valid (rows.map edit))
    {other : Row C V} (member : row ∈ rows) (member' : other ∈ rows)
    (h : s.keyOf (edit row) = s.keyOf (edit other)) : row = other := by
  have nodup := valid.1
  rw [List.map_map] at nodup
  exact inj_on_of_nodup_map nodup member member' h

/-- After edits that keep the keys distinct, a key still finds the row that had it, as long
as that row is unchanged. -/
theorem keyOf_edited_iff {edit : Row C V → Row C V} (nodup : (rows.map s.keyOf).Nodup)
    (nodup' : ((rows.map edit).map s.keyOf).Nodup) {kept : Row C V} (member : kept ∈ rows)
    (unchanged : edit kept = kept) (row_mem : row ∈ rows) :
    s.keyOf (edit row) = s.keyOf kept ↔ s.keyOf row = s.keyOf kept := by
  rw [List.map_map] at nodup'
  constructor
  · intro found
    have same : row = kept := by
      apply inj_on_of_nodup_map nodup' row_mem member
      simp [found, unchanged]
    rw [same]
  · intro found
    rw [eq_of_keyOf nodup row_mem member found, unchanged]

/-! ## Updates one by one -/

/-- The cells to set in the row with the given key, if the row meets the condition `also`. -/
structure Edit (C V : Type) where
  key : List (Option V)
  sets : List (C × Option V)
  also : Row C V → Bool := fun _ => true

variable (s) in
def Edit.statement (edit : Edit C V) : Statement C V :=
  .update edit.sets fun row => s.keyOf row == edit.key && edit.also row

variable (s) in
def editRow (edits : List (Edit C V)) (row : Row C V) : Row C V :=
  match edits.find? fun edit => edit.key == s.keyOf row with
  | some edit => assign edit.sets row
  | none => row

variable {edits : List (Edit C V)} {edit : Edit C V}

theorem find_edit_eq_none : (edits.find? fun edit => edit.key == s.keyOf row) = none ↔
    s.keyOf row ∉ edits.map (·.key) := by
  simp

theorem editRow_of_notMem (h : s.keyOf row ∉ edits.map (·.key)) : editRow s edits row = row := by
  rw [editRow, find_edit_eq_none.mpr h]

theorem editRow_append {first second : List (Edit C V)} (row : Row C V) :
    editRow s (first ++ second) row =
      if s.keyOf row ∈ first.map (·.key) then editRow s first row else editRow s second row := by
  unfold editRow
  rw [find?_append]
  cases found : first.find? fun edit => edit.key == s.keyOf row with
  | none => rw [if_neg (find_edit_eq_none.mp found), none_or]
  | some edit =>
    rw [if_pos, some_or]
    by_contra absent
    rw [find_edit_eq_none.mpr absent] at found
    cases found

theorem editRow_concat (fresh : edit.key ∉ edits.map (·.key)) :
    editRow s (edits ++ [edit]) row =
      if s.keyOf row = edit.key then assign edit.sets row else editRow s edits row := by
  rw [editRow_append]
  by_cases equal : s.keyOf row = edit.key
  · rw [if_neg (equal ▸ fresh), if_pos equal]
    simp [editRow, equal]
  rw [if_neg equal]
  split
  · rfl
  · rename_i absent
    rw [editRow_of_notMem absent, editRow_of_notMem (by simpa using equal)]

theorem valid_whole (forward : ∀ n, s.Valid (rows.map (editRow s (edits.take n)))) :
    s.Valid (rows.map (editRow s edits)) := by
  simpa using forward edits.length

variable (s) in
/-- The row that the edit is for is in the table. -/
def Edit.Present (rows : List (Row C V)) (edit : Edit C V) : Prop :=
  ∃ row ∈ rows, s.keyOf row = edit.key ∧ edit.also row = true

/-- After other edits, an update still finds the row it is for. -/
theorem exec_edit (valid : s.Valid rows) (fresh : edit.key ∉ edits.map (·.key))
    (present : edit.Present s rows) (validBefore : s.Valid (rows.map (editRow s edits))) :
    s.exec (edit.statement s) (rows.map (editRow s edits)) =
      s.accept (rows.map (editRow s (edits ++ [edit]))) := by
  obtain ⟨kept, keptMem, keptKey, keptAlso⟩ := present
  have unchanged : editRow s edits kept = kept := by
    apply editRow_of_notMem
    rw [keptKey]
    exact fresh
  rw [Edit.statement, exec, List.map_map]
  congr 1
  apply map_congr_left
  intro row member
  have found := keyOf_edited_iff valid.1 validBefore.1 keptMem unchanged member
  simp only [keptKey] at found
  simp only [comp_apply, editRow_concat fresh, Bool.and_eq_true, beq_iff_eq, found]
  by_cases equal : s.keyOf row = edit.key
  · have same : row = kept := eq_of_keyOf valid.1 member keptMem (equal.trans keptKey.symm)
    rw [same, unchanged]
    simp [keptKey, keptAlso]
  · simp [equal]

/-- Updates that each select one row by its key are accepted if every table on the way is
valid, and they change exactly these rows. -/
theorem run_edits_iff (valid : s.Valid rows) (keys : (edits.map (·.key)).Nodup)
    (present : ∀ edit ∈ edits, edit.Present s rows) :
    s.run (edits.map (Edit.statement s)) rows = some rows' ↔
      (∀ n, s.Valid (rows.map (editRow s (edits.take n)))) ∧
        rows' = rows.map (editRow s edits) := by
  -- The invariant: after each prefix of the updates, the rows of the prefix are edited and
  -- every other row still has its key.
  induction edits using List.reverseRecOn generalizing rows' with
  | nil =>
    have same : rows.map (editRow s []) = rows := map_id rows
    simp [run, same, valid, eq_comm]
  | append_singleton edits edit ih =>
    simp only [map_append, map_singleton, nodup_append, nodup_singleton,
      mem_singleton, forall_eq, true_and] at keys
    have fresh : edit.key ∉ edits.map (·.key) := fun member => keys.2 _ member rfl
    have presentBefore : ∀ e ∈ edits, e.Present s rows :=
      fun e member => present e (mem_append_left _ member)
    have presentLast := present edit (by simp)
    rw [map_append, map_singleton, run_concat, bind_eq_some_iff]
    constructor
    · intro ok
      obtain ⟨between, before, last⟩ := ok
      obtain ⟨validPrefixes, shape⟩ := (ih keys.1 presentBefore).mp before
      subst shape
      have validBetween := run_valid valid before
      rw [exec_edit valid fresh presentLast validBetween, accept_some] at last
      refine ⟨fun n => ?_, last.2⟩
      by_cases whole : n ≤ edits.length
      · rw [take_append_of_le_length whole]
        exact validPrefixes n
      · rw [take_of_length_le (by simp; omega)]
        exact last.1
    · intro ok
      obtain ⟨validPrefixes, shape⟩ := ok
      have validBefore : ∀ n, s.Valid (rows.map (editRow s (edits.take n))) := by
        intro n
        have validPrefix := validPrefixes (min n edits.length)
        rwa [take_append_of_le_length (Nat.min_le_right _ _), ← take_eq_take_min]
          at validPrefix
      refine ⟨_, (ih keys.1 presentBefore).mpr ⟨validBefore, rfl⟩, ?_⟩
      rw [exec_edit valid fresh presentLast (valid_whole validBefore), accept_some]
      exact ⟨valid_whole validPrefixes, shape⟩

/-! ## Undoing updates -/

/-- Of edits with different keys, those behind leave the rows of those before alone. -/
theorem editRow_second {first second : List (Edit C V)}
    (keys : ((first ++ second).map (·.key)).Nodup) (row : Row C V) :
    editRow s second row =
      if s.keyOf row ∈ first.map (·.key) then row else editRow s (first ++ second) row := by
  rw [editRow_append]
  split
  · rename_i inFirst
    apply editRow_of_notMem
    intro inSecond
    rw [map_append, nodup_append] at keys
    exact keys.2.2 _ inFirst _ inSecond rfl
  · rfl

/-- If the edits are accepted one by one, then so are the tables in which a front part of
them is taken back, exactly if no edited row has the old key of another edited row. -/
theorem valid_drop_iff (valid : s.Valid rows) (keys : (edits.map (·.key)).Nodup)
    (forward : ∀ n, s.Valid (rows.map (editRow s (edits.take n)))) :
    (∀ n, s.Valid (rows.map (editRow s (edits.drop n)))) ↔
      ∀ row ∈ rows, ∀ other ∈ rows, s.keyOf row ∈ edits.map (·.key) →
        s.keyOf other ∈ edits.map (·.key) → row ≠ other →
        s.keyOf (editRow s edits row) ≠ s.keyOf other := by
  have rowsNodup : rows.Nodup := List.Nodup.of_map _ valid.1
  constructor
  · intro backward row rowMem other otherMem rowEdited otherEdited differ takesOver
    -- The edits before and behind the one of the row whose key is taken over.
    obtain ⟨edit, editMem, editKey⟩ := mem_map.mp otherEdited
    obtain ⟨before, behind, split⟩ := append_of_mem editMem
    subst split
    have rowKey : s.keyOf row ≠ edit.key := fun same =>
      differ (eq_of_keyOf valid.1 rowMem otherMem (same.trans editKey))
    rw [map_append, map_cons, nodup_append, nodup_cons] at keys
    obtain ⟨_, ⟨notBehind, _⟩, apart⟩ := keys
    have notBefore : edit.key ∉ before.map (·.key) := fun member =>
      apart _ member _ mem_cons_self rfl
    by_cases rowBefore : s.keyOf row ∈ before.map (·.key)
    · have validThere := forward before.length
      rw [take_left] at validThere
      have unchanged : editRow s before other = other :=
        editRow_of_notMem (by rw [← editKey]; exact notBefore)
      rw [editRow_append, if_pos rowBefore] at takesOver
      exact differ (validThere.eq_of_edited rowMem otherMem (by rw [unchanged, takesOver]))
    · have validThere := backward (before.length + 1)
      rw [← drop_drop, drop_left, drop_one, tail_cons] at validThere
      have unchanged : editRow s behind other = other :=
        editRow_of_notMem (by rw [← editKey]; exact notBehind)
      have moved : editRow s (before ++ edit :: behind) row = editRow s behind row := by
        rw [editRow_append, if_neg rowBefore, ← singleton_append, editRow_append, if_neg]
        simpa using rowKey
      rw [moved] at takesOver
      exact differ (validThere.eq_of_edited rowMem otherMem (by rw [unchanged, takesOver]))
  · intro apart n
    have whole := valid_whole forward
    have shape : ∀ row, editRow s (edits.drop n) row =
        if s.keyOf row ∈ (edits.take n).map (·.key) then row else editRow s edits row := by
      intro row
      rw [editRow_second (by rw [take_append_drop]; exact keys), take_append_drop]
    -- A row that is still edited has not the key of one that is back.
    have mixedApart : ∀ row ∈ rows, ∀ other ∈ rows,
        s.keyOf other ∈ (edits.take n).map (·.key) → row ≠ other →
        s.keyOf (editRow s edits row) ≠ s.keyOf other := by
      intro row rowMem other otherMem back differ same
      have otherEdited : s.keyOf other ∈ edits.map (·.key) :=
        (List.Sublist.map _ (take_sublist n edits)).subset back
      by_cases rowEdited : s.keyOf row ∈ edits.map (·.key)
      · exact apart row rowMem other otherMem rowEdited otherEdited differ same
      · rw [editRow_of_notMem rowEdited] at same
        exact differ (eq_of_keyOf valid.1 rowMem otherMem same)
    constructor
    · rw [List.map_map]
      apply rowsNodup.map_on
      intro row rowMem other otherMem same
      simp only [comp_apply, shape] at same
      by_contra differ
      split at same
      · split at same
        · exact differ (eq_of_keyOf valid.1 rowMem otherMem same)
        · rename_i rowBack otherEdited
          exact mixedApart other otherMem row rowMem rowBack (Ne.symm differ) same.symm
      · split at same
        · rename_i rowEdited otherBack
          exact mixedApart row rowMem other otherMem otherBack differ same
        · exact differ (whole.eq_of_edited rowMem otherMem same)
    · intro row member
      obtain ⟨original, originalMem, rfl⟩ := mem_map.mp member
      rw [shape]
      split
      · exact valid.2 original originalMem
      · exact whole.2 _ (mem_map_of_mem originalMem)

theorem editRow_of_mem (keys : (edits.map (·.key)).Nodup) (member : edit ∈ edits)
    (same : edit.key = s.keyOf row) : editRow s edits row = assign edit.sets row := by
  unfold editRow
  cases found : edits.find? fun e => e.key == s.keyOf row with
  | none =>
    have other := find?_eq_none.mp found edit member
    simp [same] at other
  | some e =>
    have sameKey : e.key = s.keyOf row := by simpa using find?_some found
    have isEdit : e = edit := inj_on_of_nodup_map keys (mem_of_find?_eq_some found)
      member (sameKey.trans same.symm)
    rw [isEdit]

variable (s) in
/-- The second edit of a pair takes the first one back. -/
def Undoes (rows : List (Row C V)) (pair : Edit C V × Edit C V) : Prop :=
  ∃ row ∈ rows, s.keyOf row = pair.1.key ∧ pair.2.key = s.keyOf (assign pair.1.sets row) ∧
    assign pair.2.sets (assign pair.1.sets row) = row ∧
    pair.2.also (assign pair.1.sets row) = true

section Undo

variable {pairs : List (Edit C V × Edit C V)}
  (keys : ((pairs.map (·.1)).map (·.key)).Nodup)
  (undoes : ∀ pair ∈ pairs, Undoes s rows pair)
  (whole : s.Valid (rows.map (editRow s (pairs.map (·.1)))))

include keys undoes

/-- The row of a pair, as the first edits leave it. -/
theorem exists_undone {pair : Edit C V × Edit C V} (member : pair ∈ pairs) :
    ∃ row ∈ rows, s.keyOf row = pair.1.key ∧
      pair.2.key = s.keyOf (editRow s (pairs.map (·.1)) row) ∧
      assign pair.2.sets (editRow s (pairs.map (·.1)) row) = row ∧
      pair.2.also (editRow s (pairs.map (·.1)) row) = true := by
  obtain ⟨row, rowMem, key, undone⟩ := undoes pair member
  refine ⟨row, rowMem, key, ?_⟩
  rw [editRow_of_mem keys (mem_map_of_mem member) key.symm]
  exact undone

include whole

theorem undo_keys_nodup : ((pairs.map (·.2)).map (·.key)).Nodup := by
  rw [List.map_map] at keys ⊢
  apply (List.Nodup.of_map _ keys).map_on
  intro pair member pair' member' same
  rw [← List.map_map] at keys
  obtain ⟨row, rowMem, key, moved, _⟩ := exists_undone keys undoes member
  obtain ⟨row', rowMem', key', moved', _⟩ := exists_undone keys undoes member'
  have sameRow : row = row' := by
    apply whole.eq_of_edited rowMem rowMem'
    rw [← moved, ← moved']
    exact same
  rw [List.map_map] at keys
  apply inj_on_of_nodup_map keys member member'
  simp [← key, ← key', sameRow]

/-- Taking back the first edits leaves those that follow. -/
theorem map_undone (valid : s.Valid rows) (n : Nat) :
    (rows.map (editRow s (pairs.map (·.1)))).map (editRow s ((pairs.map (·.2)).take n)) =
      rows.map (editRow s ((pairs.map (·.1)).drop n)) := by
  rw [List.map_map]
  apply map_congr_left
  intro row rowMem
  have undoKeys := (undo_keys_nodup keys undoes whole).sublist
    (List.Sublist.map (·.key) (take_sublist n (pairs.map (·.2))))
  rw [editRow_second (by rw [take_append_drop]; exact keys), take_append_drop,
    comp_apply]
  split
  · rename_i back
    rw [← map_take] at back
    obtain ⟨edit, editMem, sameKey⟩ := mem_map.mp back
    obtain ⟨pair, pairMem, rfl⟩ := mem_map.mp editMem
    obtain ⟨row', rowMem', key, moved, undone, _⟩ :=
      exists_undone keys undoes (mem_of_mem_take pairMem)
    have sameRow : row' = row := eq_of_keyOf valid.1 rowMem' rowMem (key.trans sameKey)
    subst sameRow
    have inUndo : pair.2 ∈ (pairs.map (·.2)).take n := by
      rw [← map_take]
      exact mem_map_of_mem pairMem
    rw [editRow_of_mem undoKeys inUndo moved, undone]
  · rename_i ahead
    apply editRow_of_notMem
    intro back
    rw [← map_take] at back
    obtain ⟨edit, editMem, sameKey⟩ := mem_map.mp back
    obtain ⟨pair, pairMem, rfl⟩ := mem_map.mp editMem
    obtain ⟨row', rowMem', key, moved, _⟩ :=
      exists_undone keys undoes (mem_of_mem_take pairMem)
    have sameRow : row' = row := whole.eq_of_edited rowMem' rowMem (moved.symm.trans sameKey)
    apply ahead
    rw [← map_take, ← sameRow, key]
    exact mem_map_of_mem (mem_map_of_mem pairMem)

/-- Updates are taken back one by one, in the order in which they were made, exactly if no
edited row has the old key of another edited row. -/
theorem run_undo_iff (valid : s.Valid rows)
    (forward : ∀ n, s.Valid (rows.map (editRow s ((pairs.map (·.1)).take n)))) :
    s.run ((pairs.map (·.2)).map (Edit.statement s)) (rows.map (editRow s (pairs.map (·.1)))) =
        some rows' ↔
      (∀ row ∈ rows, ∀ other ∈ rows, s.keyOf row ∈ (pairs.map (·.1)).map (·.key) →
        s.keyOf other ∈ (pairs.map (·.1)).map (·.key) → row ≠ other →
        s.keyOf (editRow s (pairs.map (·.1)) row) ≠ s.keyOf other) ∧ rows' = rows := by
  have present : ∀ edit ∈ pairs.map (·.2),
      edit.Present s (rows.map (editRow s (pairs.map (·.1)))) := by
    intro edit member
    obtain ⟨pair, pairMem, rfl⟩ := mem_map.mp member
    obtain ⟨row, rowMem, _, moved, _, also⟩ := exists_undone keys undoes pairMem
    exact ⟨_, mem_map_of_mem rowMem, moved.symm, also⟩
  have restored : (rows.map (editRow s (pairs.map (·.1)))).map (editRow s (pairs.map (·.2))) =
      rows := by
    have all := map_undone keys undoes whole valid pairs.length
    rw [take_of_length_le (by simp), drop_eq_nil_of_le (by simp)] at all
    rw [all]
    exact map_id rows
  rw [run_edits_iff whole (undo_keys_nodup keys undoes whole) present, restored,
    ← valid_drop_iff valid keys forward]
  simp only [map_undone keys undoes whole valid]

end Undo

/-! ## Updates joined into one statement -/

variable (s) in
/-- Sets the same cells in every row with one of the keys. -/
def setKeys (sets : List (C × Option V)) (keys : List (List (Option V))) (row : Row C V) :
    Row C V :=
  if s.keyOf row ∈ keys then assign sets row else row

theorem setKeys_eq (sets : List (C × Option V)) (keys : List (List (Option V))) :
    setKeys s sets keys = editRow s (keys.map fun key => { key, sets }) := by
  funext row
  unfold setKeys
  split
  · rename_i member
    unfold editRow
    cases found : (keys.map fun key => ({ key, sets } : Edit C V)).find?
        fun edit => edit.key == s.keyOf row with
    | none =>
      rw [find_edit_eq_none] at found
      simp [member] at found
    | some edit =>
      obtain ⟨key, _, rfl⟩ := mem_map.mp (mem_of_find?_eq_some found)
      rfl
  · rename_i absent
    exact (editRow_of_notMem (by simpa using absent)).symm

/-- If all the rows can be set without repeating a key, so can some of them: a row that is
set and one that is not yet would have the same key in the end. -/
theorem valid_setKeys_of_subset (valid : s.Valid rows) {some all : List (List (Option V))}
    (subset : some ⊆ all) (validAll : s.Valid (rows.map (setKeys s sets all))) :
    s.Valid (rows.map (setKeys s sets some)) := by
  have rowsNodup : rows.Nodup := List.Nodup.of_map _ valid.1
  constructor
  · rw [List.map_map]
    apply rowsNodup.map_on
    have mixed : ∀ row ∈ rows, ∀ row' ∈ rows, s.keyOf row ∈ some →
        s.keyOf (assign sets row) = s.keyOf row' → row = row' := by
      intro row member row' member' inSome equal
      apply validAll.eq_of_edited member member'
      rw [setKeys, if_pos (subset inSome), setKeys]
      split
      · rw [← keyOf_assign_congr equal, assign_assign]
      · exact equal
    intro row member row' member' equal
    simp only [comp_apply, setKeys] at equal
    split at equal <;> rename_i here <;> split at equal <;> rename_i there
    · apply validAll.eq_of_edited member member'
      rwa [setKeys, if_pos (subset here), setKeys, if_pos (subset there)]
    · exact mixed row member row' member' here equal
    · exact (mixed row' member' row member there equal.symm).symm
    · exact eq_of_keyOf valid.1 member member' equal
  · intro row member
    obtain ⟨original, originalMem, rfl⟩ := mem_map.mp member
    unfold setKeys
    split
    · rename_i inSome
      have ok := validAll.2 _ (mem_map_of_mem originalMem)
      rwa [setKeys, if_pos (subset inSome)] at ok
    · exact valid.2 original originalMem

/-- One update of all the rows does the same as an update of each row, or both are refused. -/
theorem exec_joined (valid : s.Valid rows) {sets : List (C × Option V)}
    {keys : List (List (Option V))} (nodup : keys.Nodup)
    (present : ∀ key ∈ keys, ∃ row ∈ rows, s.keyOf row = key) :
    s.run (keys.map fun key => .update sets fun row => s.keyOf row == key) rows =
      s.accept (rows.map (setKeys s sets keys)) := by
  have statements : (keys.map fun key => Statement.update sets fun row => s.keyOf row == key) =
      (keys.map fun key => { key, sets }).map (Edit.statement s) := by
    simp [Edit.statement]
  apply ext
  intro rows'
  rw [statements, run_edits_iff valid (by simpa [comp_def] using nodup)
    (by simpa [Edit.Present] using present), accept_some]
  simp only [← map_take, ← setKeys_eq]
  constructor
  · rintro ⟨prefixes, rfl⟩
    have whole := prefixes keys.length
    rw [take_length] at whole
    exact ⟨whole, rfl⟩
  · rintro ⟨whole, rfl⟩
    exact ⟨fun n => valid_setKeys_of_subset valid (take_subset n keys) whole, rfl⟩

/-- The update of the rows with one of the keys. -/
def joinedStatement (s : Schema C V) (batch : List (C × Option V) × List (List (Option V))) :
    Statement C V :=
  .update batch.1 fun row => batch.2.any fun key => s.keyOf row == key

/-- The updates of one row each that a joined update stands for. -/
def singleStatements (s : Schema C V)
    (batch : List (C × Option V) × List (List (Option V))) : List (Statement C V) :=
  batch.2.map fun key => .update batch.1 fun row => s.keyOf row == key

theorem exec_joinedStatement (rows : List (Row C V))
    (batch : List (C × Option V) × List (List (Option V))) :
    s.exec (joinedStatement s batch) rows = s.accept (rows.map (setKeys s batch.1 batch.2)) := by
  rw [joinedStatement, exec]
  congr 2
  funext row
  simp [setKeys]

/-- A run of joined updates does the same as the updates of each row. -/
theorem run_batches (valid : s.Valid rows)
    {batches : List (List (C × Option V) × List (List (Option V)))}
    (nodup : (batches.flatMap (·.2)).Nodup)
    (present : ∀ key ∈ batches.flatMap (·.2), ∃ row ∈ rows, s.keyOf row = key) :
    s.run (batches.map (joinedStatement s)) rows =
      s.run (batches.flatMap (singleStatements s)) rows := by
  induction batches generalizing rows with
  | nil => rfl
  | cons batch batches ih =>
    simp only [flatMap_cons, nodup_append, mem_append] at nodup present
    obtain ⟨firstNodup, restNodup, apart⟩ := nodup
    rw [map_cons, run, flatMap_cons, run_append, exec_joinedStatement, singleStatements,
      exec_joined valid firstNodup fun key member => present key (.inl member)]
    by_cases validFirst : s.Valid (rows.map (setKeys s batch.1 batch.2))
    · rw [accept, if_pos validFirst, bind_some, bind_some]
      apply ih validFirst restNodup
      intro key member
      -- A row of a later batch is not touched by this one.
      obtain ⟨row, rowMem, rowKey⟩ := present key (.inr member)
      have untouched : setKeys s batch.1 batch.2 row = row := by
        unfold setKeys
        rw [if_neg]
        intro inBatch
        exact apart _ inBatch key member rowKey
      exact ⟨row, mem_map.mpr ⟨row, rowMem, untouched⟩, rowKey⟩
    · rw [accept, if_neg validFirst, bind_none, bind_none]

/-! ## Deletions and insertions -/

theorem Valid.sublist (valid : s.Valid rows) (part : rows'.Sublist rows) : s.Valid rows' :=
  ⟨valid.1.sublist (part.map _), fun row member => valid.2 row (part.subset member)⟩

/-- A deletion is never refused. -/
theorem exec_delete (valid : s.Valid rows) (selects : Row C V → Bool) :
    s.exec (.delete selects) rows = some (rows.filter fun row => !selects row) := by
  rw [exec, accept, if_pos (valid.sublist filter_sublist)]

/-- Deletions of single conditions delete what one deletion of their disjunction does. -/
theorem run_deletes (valid : s.Valid rows) (conditions : List (Row C V → Bool)) :
    s.run (conditions.map .delete) rows =
      some (rows.filter fun row => !conditions.any fun selects => selects row) := by
  induction conditions generalizing rows with
  | nil => simp [run]
  | cons selects conditions ih =>
    rw [map_cons, run, exec_delete valid, bind_some, ih (valid.sublist filter_sublist),
      List.filter_filter]
    congr 2
    funext row
    simp only [any_cons, Bool.not_or]
    exact Bool.and_comm _ _

/-- Conditions that each hold for one of the added rows and for no other key remove exactly
the added rows. -/
theorem filter_added {ι : Type} {items : List ι} {added : ι → Row C V}
    {selects : ι → Row C V → Bool} (valid : s.Valid (rows ++ items.map added))
    (finds : ∀ item ∈ items, selects item (added item) = true)
    (byKey : ∀ item ∈ items, ∀ row, selects item row = true → s.keyOf row = s.keyOf (added item)) :
    ((rows ++ items.map added).filter fun row => !items.any fun item => selects item row) = rows := by
  have keys := valid.1
  rw [map_append, nodup_append] at keys
  rw [filter_append]
  have kept : (rows.filter fun row => !items.any fun item => selects item row) = rows := by
    rw [filter_eq_self]
    intro row member
    simp only [Bool.not_eq_true', List.any_eq_false]
    intro item itemMem selected
    exact keys.2.2 _ (mem_map_of_mem member) _
      (mem_map_of_mem (mem_map_of_mem itemMem)) (byKey item itemMem row selected)
  have removed : ((items.map added).filter fun row => !items.any fun item => selects item row) =
      [] := by
    rw [filter_eq_nil_iff]
    intro row member
    obtain ⟨item, itemMem, rfl⟩ := mem_map.mp member
    simp only [Bool.not_eq_true', Bool.not_eq_false, List.any_eq_true]
    exact ⟨item, itemMem, finds item itemMem⟩
  rw [kept, removed, append_nil]

theorem Valid.perm (valid : s.Valid rows) (perm : rows.Perm rows') : s.Valid rows' :=
  ⟨(perm.map _).nodup_iff.mp valid.1, fun row member => valid.2 row (perm.mem_iff.mpr member)⟩

/-- Insertions are accepted if their columns are distinct and the table with all of their
rows is valid. -/
theorem run_inserts_iff (valid : s.Valid rows) {batches : List (List (List (C × Option V)))} :
    s.run (batches.map .insert) rows = some rows' ↔
      (∀ tuple ∈ batches.flatten, (tuple.map (·.1)).Nodup) ∧
        s.Valid (rows ++ batches.flatten.map rowOf) ∧
        rows' = rows ++ batches.flatten.map rowOf := by
  induction batches generalizing rows with
  | nil => simp [run, valid, eq_comm]
  | cons batch batches ih =>
    rw [map_cons, run, exec, flatten_cons]
    simp only [mem_append, or_imp, forall_and, map_append, ← append_assoc]
    split
    · rename_i distinct
      rw [bind_eq_some_iff]
      simp only [accept_some]
      constructor
      · intro ok
        obtain ⟨between, ⟨validBetween, rfl⟩, rest⟩ := ok
        obtain ⟨restDistinct, validAll, shape⟩ := (ih validBetween).mp rest
        exact ⟨⟨distinct, restDistinct⟩, validAll, shape⟩
      · intro ok
        obtain ⟨⟨_, restDistinct⟩, validAll, shape⟩ := ok
        have validBetween := validAll.sublist (sublist_append_left _ _)
        exact ⟨_, ⟨validBetween, rfl⟩, (ih validBetween).mpr ⟨restDistinct, validAll, shape⟩⟩
    · rename_i repeated
      constructor
      · intro ok
        cases ok
      · intro ok
        exact absurd ok.1.1 repeated

end Schema

end

end Dbx.Lib.Table
