import Mathlib.Logic.Function.Basic
import Dbx.Lib.Text

/-!
# Headers of an imported table

`table_import.rs`, lines 413–429. `str::to_lowercase` is a parameter.
-/
namespace Dbx.Source.TableImport

open Dbx.Lib.Text

def candidate (header : Str) (suffix : Nat) : Str :=
  if suffix == 0 then header else header ++ '_' :: (toString suffix).toList

variable (lower : Str → Str)

/-- The retry loop of one header, with the lower-cased names given so far. -/
def freeName (seen : List Str) (header : Str) : (fuel suffix : Nat) → Option (Str × Nat)
  | 0, _ => none
  | fuel + 1, suffix =>
    if seen.contains (lower (candidate header suffix)) then freeName seen header fuel (suffix + 1)
    else some (candidate header suffix, suffix + 1)

/-- The loop over the headers; `next` is the hash map of the suffixes. -/
def uniqueFrom (fuel : Nat) (seen : List Str) (next : Str → Nat) : List Str → Option (List Str)
  | [] => some []
  | header :: headers => do
    let (name, suffix) ← freeName lower seen header fuel (next (lower header))
    let names ← uniqueFrom fuel (lower name :: seen)
      (Function.update next (lower header) suffix) headers
    some (name :: names)

def uniqueImportHeaders (fuel : Nat) (headers : List Str) : Option (List Str) :=
  uniqueFrom lower fuel [] (fun _ => 0) headers

end Dbx.Source.TableImport
