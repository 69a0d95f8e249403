import Mathlib.Tactic.Common

/-!
# Runs of a step function

A run is a list of events. `states` has the states it goes through, `StepsMeet` says that
each step meets a condition on the state before it. Where a condition on single steps is
what keeps a property, it is also the condition for the property to hold along the run.
-/
namespace Dbx.Lib.Runs

open List

variable {State Event : Type} (step : State → Event → State)

/-- The states of a run, the first one included. -/
def states (s : State) : List Event → List State
  | [] => [s]
  | event :: later => s :: states (step s event) later

def StepsMeet (condition : State → Event → Prop) (s : State) : List Event → Prop
  | [] => True
  | event :: later => condition s event ∧ StepsMeet condition (step s event) later

variable {step} {P Inv : State → Prop} {condition : State → Event → Prop}

theorem mem_states_self {s : State} {events : List Event} : s ∈ states step s events := by
  cases events with
  | nil => exact mem_singleton_self s
  | cons event later => exact mem_cons_self

theorem stepsMeet_true {s : State} {events : List Event} :
    StepsMeet step (fun _ _ => True) s events := by
  induction events generalizing s with
  | nil => trivial
  | cons event later ih => exact ⟨trivial, ih⟩

/-- What each step does under an invariant, along a run. -/
theorem StepsMeet.of_inv {goal : State → Event → Prop}
    (keeps : ∀ s event, Inv s → condition s event → Inv (step s event))
    (here : ∀ s event, Inv s → condition s event → goal s event) {s : State} (inv : Inv s)
    {events : List Event} (meets : StepsMeet step condition s events) :
    StepsMeet step goal s events := by
  induction events generalizing s with
  | nil => trivial
  | cons event later ih =>
    exact ⟨here s event inv meets.1, ih (keeps s event inv meets.1) meets.2⟩

/-- The property holds along a run exactly if each step meets the condition. -/
theorem forall_states_iff (keeps : ∀ s event, Inv s → Inv (step s event))
    (good : ∀ s event, Inv s → P s → condition s event → P (step s event))
    (bad : ∀ s event, Inv s → P s → P (step s event) → condition s event)
    {s : State} (inv : Inv s) (first : P s) (events : List Event) :
    (∀ s' ∈ states step s events, P s') ↔ StepsMeet step condition s events := by
  induction events generalizing s with
  | nil =>
    constructor
    · intro _
      trivial
    · intro _ s' member
      rw [List.mem_singleton.mp member]
      exact first
  | cons event later ih =>
    constructor
    · intro all
      have next : P (step s event) :=
        all _ (mem_cons_of_mem _ mem_states_self)
      constructor
      · exact bad s event inv first next
      · exact (ih (keeps s event inv) next).mp fun s' member =>
          all s' (mem_cons_of_mem _ member)
    · intro meets s' member
      have next := good s event inv first meets.1
      obtain same | member := List.mem_cons.mp member
      · exact same ▸ first
      · exact (ih (keeps s event inv) next).mpr meets.2 s' member

end Dbx.Lib.Runs
