import Mathlib.Logic.Function.Basic

/-!
# Snapshots of the configuration

`config/governance.rs`, lines 406–464. A call of `apply` or `apply_silent` loads the tree,
modifies a copy and stores the copy. The load and the store are events of their own, and the
calls are numbered. Trees are of any type; they always have a JSON value, so that no call
fails. What the auditor does with the two trees it is given is left out.
-/
namespace Dbx.Source.ConfigSnapshot

variable {Tree : Type}

/-- A call of `apply`, which is audited, or of `apply_silent`. -/
structure Call (Tree : Type) where
  audited : Bool
  f : Tree → Tree

inductive Phase (Tree : Type) where
  | idle
  | loaded (prev : Tree)
  /-- With the trees that were given to the auditor. -/
  | returned (diff : Option (Tree × Tree))

structure ConfigSnapshot (Tree : Type) where
  inner : Tree
  phase : Nat → Phase Tree := fun _ => .idle

inductive Event where
  | load (i : Nat)
  | store (i : Nat)

def ConfigSnapshot.step (calls : Nat → Call Tree) (s : ConfigSnapshot Tree) :
    Event → ConfigSnapshot Tree
  | .load i =>
    match s.phase i with
    | .idle => { s with phase := Function.update s.phase i (.loaded s.inner) }
    | _ => s
  | .store i =>
    match s.phase i with
    | .loaded prev =>
      let newTree := (calls i).f prev
      let diff := if (calls i).audited then some (prev, newTree) else none
      ⟨newTree, Function.update s.phase i (.returned diff)⟩
    | _ => s

end Dbx.Source.ConfigSnapshot
