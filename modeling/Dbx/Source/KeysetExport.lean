import Dbx.Source.TransferLiterals

/-!
# Keyset paging of an export

Model of `keyset_where_clause` and `value_to_sql_literal` (`transfer.rs:4584-4639`) and of the
loop of `export_database_sql_core` that asks for page after page with them
(`database_export.rs:3048-3145`). The condition is kept as its comparisons; the rest of
`keyset_pagination_sql_with_identifier_quote` is up to the database that answers the query.
Cancelled exports and failed queries are left out.
-/
namespace Dbx.Source.KeysetExport

open Dbx.Lib.Text TransferLiterals

/-- `value_to_sql_literal`. -/
def valueToSqlLiteral : Json → Str
  | .null => "NULL".toList
  | .bool b => if b then "TRUE".toList else "FALSE".toList
  | .number n => n.text
  | .string s => quoteStringLiteral s
  | value => quoteStringLiteral value.print

inductive CompareOp where
  | equal | greater
  deriving DecidableEq

structure Comparison where
  column : Str
  op : CompareOp
  literal : Str

/-- The OR of ANDs of a WHERE clause, if there is one. -/
abbrev Condition := Option (List (List Comparison))

abbrev Rows := List (List Json)

/-- The AND for each key: `=` on the keys before it and `>` on the key itself. -/
def keysetClauses (pairs : List (Str × Str)) : List (List Comparison) :=
  pairs.zipIdx.map fun (pair, index) =>
    (pairs.take index).map (fun pair => ⟨pair.1, .equal, pair.2⟩) ++ [⟨pair.1, .greater, pair.2⟩]

def keysetWhereClause (primaryKeys : List Str) (lastPkValues : List Json) : Condition :=
  let pairs := primaryKeys.zip (lastPkValues.map valueToSqlLiteral)
  if pairs.isEmpty then none else some (keysetClauses pairs)

section

variable (colNames primaryKeys : List Str)

def primaryKeyIndices : List Nat := primaryKeys.filterMap fun key => colNames.findIdx? (· == key)

def useKeyset : Bool :=
  !primaryKeys.isEmpty && (primaryKeyIndices colNames primaryKeys).length == primaryKeys.length

/-- The key values of the last row of a page. -/
def primaryKeyValues (row : List Json) : List Json :=
  (primaryKeyIndices colNames primaryKeys).map (row.getD · .null)

variable (query : Condition → Rows) (batchSize : Nat)

/-- The loop behind a page with the given last keys, for at most `fuel` pages; `none` if it is
not done by then. -/
def exportRows : Nat → List Json → Option Rows
  | 0, _ => none
  | fuel + 1, last =>
    let rows := query (keysetWhereClause primaryKeys last)
    if rows.length = 0 then some []
    else
      let last := rows.getLast?.elim last (primaryKeyValues colNames primaryKeys)
      if rows.length < batchSize then some rows
      else (exportRows fuel last).map (rows ++ ·)

end

end Dbx.Source.KeysetExport
