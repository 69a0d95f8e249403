import Dbx.Lib.Runs
import Dbx.Source.ConfigSnapshot
import Mathlib.Data.List.Infix

/-!
# Changes of the configuration

A call stores what it made of the tree it loaded, whatever stands in the snapshot by then
(`config/governance.rs:443,461`). Where each call finds the tree it loaded, the changes of a
run are those of its calls in the order of their stores, which keeps to the time of the calls:
each store lies between the start of its call and its return.
-/
namespace Dbx.Guarantees.ConfigChanges

open Dbx.Lib.Runs Dbx.Source.ConfigSnapshot List Function

variable {Tree : Type} {calls : Nat → Call Tree} {tree : Tree}

structure History (Tree : Type) where
  snapshot : ConfigSnapshot Tree
  /-- The calls that have returned, in the order of their stores. -/
  stored : List Nat

def start (tree : Tree) : History Tree := ⟨{ inner := tree }, []⟩

def History.step (calls : Nat → Call Tree) (h : History Tree) (event : Event) : History Tree where
  snapshot := h.snapshot.step calls event
  stored :=
    match event with
    | .load _ => h.stored
    | .store i =>
      match h.snapshot.phase i with
      | .loaded _ => h.stored ++ [i]
      | _ => h.stored

/-- The calls one after another. -/
def applied (calls : Nat → Call Tree) (tree : Tree) (order : List Nat) : Tree :=
  order.foldl (fun tree i => (calls i).f tree) tree

/-- The changes are those of the calls that have returned, in this order; what was audited of a
call is its step in the order. -/
structure Serial (calls : Nat → Call Tree) (tree : Tree) (h : History Tree) (order : List Nat) :
    Prop where
  all : order.Perm h.stored
  inner : h.snapshot.inner = applied calls tree order
  audited : ∀ i prev newTree, h.snapshot.phase i = .returned (some (prev, newTree)) → ∃ front,
    front ++ [i] <+: order ∧ prev = applied calls tree front ∧ newTree = (calls i).f prev

/-- A call that stores finds the tree that it loaded. -/
def Undisturbed (h : History Tree) : Event → Prop
  | .load _ => True
  | .store i => ∀ prev, h.snapshot.phase i = .loaded prev → prev = h.snapshot.inner

/-- What an event can do. -/
theorem step_cases (h : History Tree) (event : Event) : h.step calls event = h ∨
    (∃ i, event = .load i ∧ h.step calls event = ⟨⟨h.snapshot.inner,
      Function.update h.snapshot.phase i (.loaded h.snapshot.inner)⟩, h.stored⟩) ∨
    ∃ i prev diff, event = .store i ∧ h.snapshot.phase i = .loaded prev ∧
      (diff = none ∨ diff = some (prev, (calls i).f prev)) ∧ h.step calls event =
        ⟨⟨(calls i).f prev, Function.update h.snapshot.phase i (.returned diff)⟩,
          h.stored ++ [i]⟩ := by
  cases event with
  | load i => cases phase : h.snapshot.phase i <;> simp [History.step, ConfigSnapshot.step, phase]
  | store i =>
    cases phase : h.snapshot.phase i <;> simp [History.step, ConfigSnapshot.step, phase]
    split <;> simp

/-- The order of the stores goes on with an undisturbed step. -/
theorem Serial.step {h : History Tree} {event : Event} (serial : Serial calls tree h h.stored)
    (undisturbed : Undisturbed h event) :
    Serial calls tree (h.step calls event) (h.step calls event).stored := by
  rcases step_cases h event with same | ⟨i, -, next⟩ | ⟨i, prev, diff, rfl, loaded, audit, next⟩
  · rwa [same]
  all_goals rw [next]
  · refine ⟨.refl _, serial.inner, fun j prev newTree phase => serial.audited j prev newTree ?_⟩
    by_cases same : j = i <;> simp_all
  · have found : prev = applied calls tree h.stored :=
      (undisturbed prev loaded).trans serial.inner
    refine ⟨.refl _, by simp [applied, found], fun j prev' newTree phase => ?_⟩
    by_cases same : j = i
    · simp only [same, update_self, Phase.returned.injEq] at phase
      rcases audit with rfl | rfl
      · cases phase
      · cases phase
        exact ⟨h.stored, by rw [same], found, by rw [same]⟩
    · simp only [update_of_ne same] at phase
      obtain ⟨front, upTo, step⟩ := serial.audited j prev' newTree phase
      exact ⟨front, upTo.trans (prefix_append ..), step⟩

/-- Undisturbed calls change the configuration one after another, in the order of their stores. -/
theorem changes_serial (calls : Nat → Call Tree) (tree : Tree) {events : List Event}
    (undisturbed : StepsMeet (History.step calls) Undisturbed (start tree) events) :
    Serial calls tree (events.foldl (History.step calls) (start tree))
      (events.foldl (History.step calls) (start tree)).stored := by
  have run : ∀ {h : History Tree}, Serial calls tree h h.stored →
      StepsMeet (History.step calls) Undisturbed h events →
      Serial calls tree (events.foldl (History.step calls) h)
        (events.foldl (History.step calls) h).stored := by
    clear undisturbed
    induction events with
    | nil => exact fun serial _ => serial
    | cons event later ih => exact fun serial meets => ih (serial.step meets.1) meets.2
  exact run ⟨.refl _, rfl, nofun⟩ undisturbed

def counting (_ : Nat) : Call Nat := ⟨true, (· + 1)⟩

theorem changes_serial_twice : Serial counting 0
    ([.load 0, .store 0, .load 1, .store 1].foldl (History.step counting) (start 0)) [0, 1] := by
  refine changes_serial counting 0 ⟨trivial, ?_, trivial, ?_, trivial⟩
  all_goals
    intro prev loaded
    cases loaded
    rfl

/-- Two calls that load before either stores: one change is lost. -/
theorem first_change_lost : ¬ ∃ order, Serial counting 0
    ([.load 0, .load 1, .store 0, .store 1].foldl (History.step counting) (start 0)) order := by
  rintro ⟨order, serial⟩
  obtain ⟨i, j, rfl⟩ := length_eq_two.mp serial.all.length_eq
  cases serial.inner

end Dbx.Guarantees.ConfigChanges
