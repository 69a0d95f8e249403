import Dbx.Lib.Program

/-!
# Interleaved calls and a rely rule

A pool is a shared world and a list of calls in progress. An event starts a call or lets
one call take its next operation. `Safe` is the proof obligation of one call: an
assertion while it is under way and one about its result, kept under whatever the other
calls may do in between, which is what the relation `rely` allows.

Restrictions on the runs considered are a predicate on single operations, `allowed`.
-/
namespace Dbx.Lib.Program

open Prog List

structure Pool (Request Op : Type) (Ans : Op → Type) (α World : Type) where
  world : World
  calls : List (Request × Prog Op Ans α) := []

/-- A new call, or the next operation of the call with the given number. -/
inductive Event (Request Choice : Type) where
  | start (request : Request)
  | step (i : Nat) (choice : Choice)

variable {Request Op : Type} {Ans : Op → Type} {α World Choice : Type}

variable {pool : Pool Request Op Ans α World}

namespace Pool

variable (handle : Nat → Handler Op Ans World Choice) (program : Request → Prog Op Ans α)

def next (pool : Pool Request Op Ans α World) : Event Request Choice → Pool Request Op Ans α World
  | .start request => { pool with calls := pool.calls ++ [(request, program request)] }
  | .step i choice =>
    match pool.calls[i]? with
    | some (request, .call op k) =>
      let (answer, world) := handle i pool.world op choice
      { world, calls := pool.calls.set i (request, k answer) }
    | _ => pool

def run (pool : Pool Request Op Ans α World) (events : List (Event Request Choice)) :
    Pool Request Op Ans α World :=
  events.foldl (next handle program) pool

/-- The operation an event takes is allowed. -/
def EventAllowed (allowed : World → Op → Choice → Prop) (pool : Pool Request Op Ans α World) :
    Event Request Choice → Prop
  | .start _ => True
  | .step i choice =>
    ∀ request op k, pool.calls[i]? = some (request, .call op k) → allowed pool.world op choice

/-- Every operation of a run is allowed. -/
def RunAllowed (allowed : World → Op → Choice → Prop) (pool : Pool Request Op Ans α World) :
    List (Event Request Choice) → Prop
  | [] => True
  | event :: later =>
    EventAllowed allowed pool event ∧ RunAllowed allowed (next handle program pool event) later

theorem RunAllowed.earlier {allowed : World → Op → Choice → Prop}
    {events later : List (Event Request Choice)}
    (h : RunAllowed handle program allowed pool (events ++ later)) :
    RunAllowed handle program allowed pool events := by
  induction events generalizing pool with
  | nil => trivial
  | cons event events ih => exact ⟨h.1, ih h.2⟩

end Pool

/-- What the calls of a pool may assume about each other. -/
structure Rely (handle : Nat → Handler Op Ans World Choice)
    (rely : Nat → World → World → Prop) : Prop where
  refl : ∀ i w, rely i w w
  trans : ∀ i w₁ w₂ w₃, rely i w₁ w₂ → rely i w₂ w₃ → rely i w₁ w₃
  other : ∀ i j w op choice, i ≠ j → rely i w (handle j w op choice).2

section Safe

variable (handle : Nat → Handler Op Ans World Choice) (rely : Nat → World → World → Prop)
  (allowed : World → Op → Choice → Prop) (I : World → Prop)

/-- Call `i` keeps the invariant `I` at each of its operations, satisfies `P` before each of
them and `Q` when it has returned. -/
def Safe (i : Nat) (P : World → Prop) (Q : α → World → Prop) : Prog Op Ans α → World → Prop
  | ret a, w => Q a w
  | call op k, w => P w ∧ ∀ w' choice, rely i w w' → I w' → allowed w' op choice →
      I (handle i w' op choice).2 ∧
      Safe i P Q (k (handle i w' op choice).1) (handle i w' op choice).2

variable {handle rely allowed I} {i : Nat} {P : World → Prop} {Q : α → World → Prop}

/-- What the other calls do leaves a call safe. -/
theorem Safe.stable (env : Rely handle rely) {p : Prog Op Ans α} {w w' : World}
    (stableP : ∀ w w', rely i w w' → P w → P w')
    (stableQ : ∀ a w w', rely i w w' → Q a w → Q a w')
    (h : Safe handle rely allowed I i P Q p w) (steady : rely i w w') :
    Safe handle rely allowed I i P Q p w' := by
  cases p with
  | ret a => exact stableQ a w w' steady h
  | call op k =>
    refine ⟨stableP w w' steady h.1, fun w'' choice steady' => ?_⟩
    exact h.2 w'' choice (env.trans _ _ _ _ steady steady')

end Safe

namespace Pool

variable {handle : Nat → Handler Op Ans World Choice} {program : Request → Prog Op Ans α}
  {rely : Nat → World → World → Prop} {allowed : World → Op → Choice → Prop} {I : World → Prop}
  {P : Nat → World → Prop} {Q : Nat → Request → α → World → Prop}

/-- The obligations of the rule: assertions are kept by what the others do, and a program is
safe where it starts. `fresh i` says that call `i` has not done anything. -/
structure Obligations (handle : Nat → Handler Op Ans World Choice)
    (program : Request → Prog Op Ans α)
    (rely : Nat → World → World → Prop) (allowed : World → Op → Choice → Prop)
    (I : World → Prop) (fresh P : Nat → World → Prop)
    (Q : Nat → Request → α → World → Prop) : Prop where
  env : Rely handle rely
  stableFresh : ∀ i w w', rely i w w' → fresh i w → fresh i w'
  stableP : ∀ i w w', rely i w w' → P i w → P i w'
  stableQ : ∀ i request a w w', rely i w w' → Q i request a w → Q i request a w'
  start : ∀ i request w, fresh i w →
    Safe handle rely allowed I i (P i) (Q i request) (program request) w

/-- The invariant holds of the world, and every call is safe. -/
structure AllSafe (handle : Nat → Handler Op Ans World Choice)
    (rely : Nat → World → World → Prop) (allowed : World → Op → Choice → Prop)
    (I : World → Prop) (fresh P : Nat → World → Prop) (Q : Nat → Request → α → World → Prop)
    (pool : Pool Request Op Ans α World) : Prop where
  world : I pool.world
  unused : ∀ i, pool.calls.length ≤ i → fresh i pool.world
  calls : ∀ i request p, pool.calls[i]? = some (request, p) →
    Safe handle rely allowed I i (P i) (Q i request) p pool.world

variable {fresh : Nat → World → Prop}

section

variable (rule : Obligations handle program rely allowed I fresh P Q)
include rule

theorem start_allSafe {request : Request} (safe : AllSafe handle rely allowed I fresh P Q pool) :
    AllSafe handle rely allowed I fresh P Q (next handle program pool (.start request)) where
  world := safe.world
  unused := by
    intro i past
    simp only [next, length_append, length_singleton] at past
    exact safe.unused i (by omega)
  calls := by
    intro i request' p found
    simp only [next, getElem?_append, getElem?_singleton] at found
    split at found
    · exact safe.calls i request' p found
    split at found
    · cases found
      exact rule.start i request pool.world (safe.unused i (by omega))
    · cases found

theorem step_allSafe {i : Nat} {choice : Choice}
    (safe : AllSafe handle rely allowed I fresh P Q pool)
    (ok : EventAllowed allowed pool (.step i choice)) :
    AllSafe handle rely allowed I fresh P Q (next handle program pool (.step i choice)) := by
  simp only [next]
  split
  next request op k found =>
    obtain ⟨inv, continued⟩ := (safe.calls i request _ found).2 pool.world choice
      (rule.env.refl i _) safe.world (ok request op k found)
    have inside : i < pool.calls.length := (List.getElem?_eq_some_iff.mp found).1
    refine ⟨inv, fun j past => ?_, fun j request' p found' => ?_⟩
    · rw [length_set] at past
      exact rule.stableFresh j _ _ (rule.env.other j i _ op choice (by omega))
        (safe.unused j past)
    by_cases same : i = j
    · subst same
      rw [getElem?_set_self inside] at found'
      cases found'
      exact continued
    · rw [getElem?_set_ne same] at found'
      exact (safe.calls j request' p found').stable rule.env (rule.stableP j)
        (rule.stableQ j request') (rule.env.other j i _ op choice (Ne.symm same))
  next => exact safe

/-- The rule: a pool that starts safe is safe after every run of allowed operations. -/
theorem run_allSafe {events : List (Event Request Choice)}
    (safe : AllSafe handle rely allowed I fresh P Q pool)
    (ok : RunAllowed handle program allowed pool events) :
    AllSafe handle rely allowed I fresh P Q (run handle program pool events) := by
  induction events generalizing pool with
  | nil => exact safe
  | cons event later ih =>
    refine ih ?_ ok.2
    cases event with
    | start request => exact start_allSafe rule safe
    | step i choice => exact step_allSafe rule safe ok.1

end

end Pool

end Dbx.Lib.Program
