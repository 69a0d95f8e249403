import Mathlib.Logic.Function.Basic
import Dbx.Lib.Text

/-!
# Column aliases of a sorted query

`query_result_sql.rs`, lines 384–409 and 2188–2222: the names that the wrapper of a sorted
query gives to the result columns, and the name that its `ORDER BY` takes. Left out: the
databases whose wrapper has no column list.
-/
namespace Dbx.Source.QueryResultSql

open Dbx.Lib.Text

def fallbackAlias (index : Nat) : Str := "column_".toList ++ (toString (index + 1)).toList

variable (isAlphanumeric : Char → Bool)

def normalizeAliasBase (index : Nat) (column : Str) : Str :=
  let compact := joinWith ['_'] (splitWhitespace column)
  let safe := compact.map fun ch => if isAlphanumeric ch || ch == '_' || ch == '$' then ch else '_'
  let trimmed := (safe.dropWhile (· == '_')).rdropWhile (· == '_')
  if trimmed.isEmpty then fallbackAlias index else trimmed

/-- The bases in order, each with its count so far; `seen` is the hash map. -/
def countBases (seen : Str → Nat) : List Str → List (Str × Nat)
  | [] => []
  | base :: bases =>
    (base, seen base + 1) :: countBases (Function.update seen base (seen base + 1)) bases

def suffixed : Str × Nat → Str
  | (base, count) => if count == 1 then base else base ++ '_' :: (toString count).toList

def buildDerivedColumnAliases (resultColumns : List Str) : List Str :=
  (countBases (fun _ => 0) (resultColumns.mapIdx (normalizeAliasBase isAlphanumeric))).map suffixed

/-- The name in the `ORDER BY` of `build_sorted_query_sql`. -/
def sortAlias (resultColumns : List Str) (columnIndex : Nat) (column : Str) : Str :=
  let aliases := buildDerivedColumnAliases isAlphanumeric resultColumns
  (aliases[columnIndex]?.or
    ((resultColumns.findIdx? (· == column)).bind (aliases[·]?))).getD (fallbackAlias columnIndex)

end Dbx.Source.QueryResultSql
