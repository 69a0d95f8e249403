import Mathlib.Algebra.GroupWithZero.Nat
import Dbx.Lib.Text

/-!
# Batches of SQL within the statement limit

`crates/dbx-core/src/db/cloudflare_d1/sql_limits.rs:3-51`. A range of items is given by its two
ends, and the renderer is any function of them.
-/
namespace Dbx.Source.SqlLimits

open Dbx.Lib.Text

def maxSqlStatementBytes : Nat := 100000

structure SqlBatch where
  sql : Str
  itemCount : Nat
deriving DecidableEq, Repr

/-- `String::len`. -/
def len (sql : Str) : Nat := (sql.map Char.utf8Size).sum

def oversized (itemLabel : Str) (item bytes : Nat) : Str :=
  "Cloudflare D1 ".toList ++ itemLabel ++ ' ' :: Nat.toDigits 10 item ++ " generates a ".toList ++
    Nat.toDigits 10 bytes ++ "-byte SQL statement; the maximum is ".toList ++
    Nat.toDigits 10 maxSqlStatementBytes ++ (" bytes. Reduce the value size because a single " ++
      "item cannot be split safely.").toList

section Loops

variable (itemCount maxItems : Nat) (render : Nat → Nat → Str)

/-- The inner loop: the end of the batch and its SQL. -/
def extend (start stop : Nat) (accepted : Str) : Nat × Str :=
  if stop < itemCount ∧ stop - start < maxItems then
    let candidate := render start (stop + 1)
    if len candidate > maxSqlStatementBytes then (stop, accepted)
    else extend start (stop + 1) candidate
  else (stop, accepted)
termination_by itemCount - stop

theorem le_extend (start stop : Nat) (accepted : Str) :
    stop ≤ (extend itemCount maxItems render start stop accepted).1 := by
  fun_induction extend itemCount maxItems render start stop accepted <;> omega

/-- The outer loop from a start. -/
def batchesFrom (itemLabel : Str) (start : Nat) : Except Str (List SqlBatch) :=
  if start < itemCount then
    let first := render start (start + 1)
    if len first > maxSqlStatementBytes then .error (oversized itemLabel (start + 1) (len first))
    else
      let batch := extend itemCount maxItems render start (start + 1) first
      (batchesFrom itemLabel batch.1).map fun batches =>
        if (trim batch.2).isEmpty then batches else ⟨batch.2, batch.1 - start⟩ :: batches
  else .ok []
termination_by itemCount - start
decreasing_by
  have := le_extend itemCount maxItems render start (start + 1) (render start (start + 1))
  omega

end Loops

def buildSqlBatches (itemCount maxItems : Nat) (itemLabel : Str) (render : Nat → Nat → Str) :
    Except Str (List SqlBatch) :=
  batchesFrom itemCount (max maxItems 1) render itemLabel 0

end Dbx.Source.SqlLimits
