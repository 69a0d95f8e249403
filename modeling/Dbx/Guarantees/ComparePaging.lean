import Dbx.Guarantees.SyncPlan

/-!
# The pages of a comparison

`fetch_compare_rows` (`data_compare.rs:1165-1211`) asks for page after page until one is
short. Whatever clause a dialect has for a page, it is the same window of the rows in key
order (`pageClause_answer`); only the clauses of IRIS and of JDBC agents do not move with
the offset. So the loop reads the whole table, except on these two, where a table of one
full page or more is read from its start again and again (`fetch_reads_table_iff`).
-/
namespace Dbx.Guarantees.ComparePaging

open Dbx.Source Dbx.Source.DataCompare Dbx.Guarantees.SyncPlan List

/-- The rows with numbers in a window are a slice of the rows. -/
theorem numberedRows_window {α : Type} (rows : List α) (after upTo start : Nat) :
    ((rows.zipIdx (start + 1)).filter fun row => after < row.2 && row.2 ≤ upTo).map (·.1) =
      (rows.take (upTo - start)).drop (after - start) := by
  induction rows generalizing start with
  | nil => simp
  | cons row rows ih =>
    rw [zipIdx_cons, filter_cons]
    by_cases below : start + 1 ≤ after
    · have skip : after - start = (after - (start + 1)) + 1 := by omega
      rw [if_neg (by simp; omega), ih (start + 1), skip]
      by_cases more : start < upTo
      · have step : upTo - start = (upTo - (start + 1)) + 1 := by omega
        rw [step, take_succ_cons, drop_succ_cons]
      · have none : upTo - start = 0 ∧ upTo - (start + 1) = 0 := by omega
        rw [none.1, none.2]
        simp
    · have here : after - start = 0 ∧ after - (start + 1) = 0 := by omega
      by_cases more : start < upTo
      · have step : upTo - start = (upTo - (start + 1)) + 1 := by omega
        rw [if_pos (by simp; omega), map_cons, ih (start + 1), here.1, here.2, step,
          take_succ_cons]
        rfl
      · have none : upTo - start = 0 ∧ upTo - (start + 1) = 0 := by omega
        rw [if_neg (by simp; omega), ih (start + 1), none.1, none.2]
        simp

/-- The page clauses of all dialects are windows of the rows. -/
theorem pageClause_answer {α : Type} (strategy : TablePaginationStrategy) (rowLimit offset : Nat)
    (rows : List α) :
    (pageClause strategy rowLimit offset).answer rows =
      (pageQuery strategy rowLimit offset).answer rows := by
  have numbered : numberedRows rows (fun n => offset < n && n ≤ offset + rowLimit) =
      (rows.drop offset).take rowLimit := by
    have window := numberedRows_window rows offset (offset + rowLimit) 0
    rw [numberedRows, window, Nat.sub_zero, Nat.sub_zero, drop_take, Nat.add_sub_cancel_left]
  have between : (rows.take (offset + rowLimit)).drop offset = (rows.drop offset).take rowLimit := by
    rw [drop_take, Nat.add_sub_cancel_left]
  by_cases start : offset = 0
  · cases strategy <;> simp [pageClause, pageQuery, PageClause.answer, PageQuery.answer, start]
  have later : 0 < offset := by omega
  cases strategy <;>
    simp [pageClause, pageQuery, PageClause.answer, PageQuery.answer, start, later, numbered,
      between, Nat.succ_le_iff]

variable {batch : Nat} {rows : List FetchedRow}

theorem fetchPages_short {page : Nat → List FetchedRow} {offset : Nat}
    (short : (page offset).length < batch) :
    fetchPages page batch 1 offset = some (page offset) := by
  unfold fetchPages
  by_cases empty : (page offset).length = 0
  · simp [eq_nil_of_length_eq_zero empty]
  · simp [empty, short]

/-- A loop whose pages move with the offset ends with the rows behind it. -/
theorem fetchPages_ends (positive : 0 < batch) (offset : Nat) : ∃ fuel,
      fetchPages (fun offset => (rows.drop offset).take batch) batch fuel offset =
        some (rows.drop offset) := by
  induction left : rows.length - offset using Nat.strong_induction_on generalizing offset with
  | _ left ih =>
    by_cases short : rows.length - offset < batch
    · have page : (rows.drop offset).take batch = rows.drop offset :=
        take_of_length_le (by simp; omega)
      refine ⟨1, ?_⟩
      rw [fetchPages_short (by simp; omega), page]
    · obtain ⟨fuel, later⟩ := ih (rows.length - (offset + batch)) (by omega) (offset + batch) rfl
      refine ⟨fuel + 1, ?_⟩
      have length : ((rows.drop offset).take batch).length = batch := by simp; omega
      rw [fetchPages]
      rw [length, if_neg (by omega), if_neg (by omega), later, Option.map_some, ← drop_drop,
        take_append_drop]

/-- The loop of `fetch_compare_rows` ends, and its pages are the rows of the table in key order. -/
def ReadsTable (databaseType : DatabaseType) (rows : List FetchedRow) (batch : Nat) : Prop :=
  ∃ fuel, fetchPages (fun offset =>
    ((pageClause (boundedReadStrategy databaseType) batch offset).answer rows).take batch)
      batch fuel 0 = some rows

variable {databaseType : DatabaseType}

theorem skipsOffset_iff :
    skipsOffset (boundedReadStrategy databaseType) = true ↔
      databaseType ≠ .iris ∧ databaseType ≠ .jdbc := by
  cases databaseType <;> decide

theorem readsTable_of_skips (positive : 0 < batch)
    (skips : skipsOffset (boundedReadStrategy databaseType) = true) :
    ReadsTable databaseType rows batch := by
  obtain ⟨fuel, ends⟩ := fetchPages_ends positive 0
  refine ⟨fuel, ?_⟩
  simp only [pageClause_answer, page_eq, skips, if_true]
  exact ends

/-- Pages that do not move are enough for a table of less than one page only. -/
theorem readsTable_restarting (positive : 0 < batch)
    (restarts : skipsOffset (boundedReadStrategy databaseType) = false) :
    ReadsTable databaseType rows batch ↔ rows.length < batch := by
  unfold ReadsTable
  simp only [pageClause_answer, page_eq, restarts, Bool.false_eq_true, if_false, drop_zero]
  constructor
  · rintro ⟨fuel, done⟩
    exact (fetchPages_restarting positive done).2
  · intro short
    have page : rows.take batch = rows := take_of_length_le (by omega)
    refine ⟨1, ?_⟩
    rw [fetchPages_short (by rwa [page]), page]

end Dbx.Guarantees.ComparePaging
