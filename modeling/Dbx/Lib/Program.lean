import Mathlib.Logic.Basic

/-!
# Programs with awaited operations

A program is a tree of operations with a continuation for every answer. A handler
says what an operation does to a world, given a choice of the environment, so that
a run is determined by the list of choices. A run that is given fewer choices than
the program has operations is a program stopped after one of its awaited steps.

`Always` is the rule for such runs: an assertion about the world that holds at every
step of the program, and a postcondition where it returns.
-/
namespace Dbx.Lib.Program

inductive Prog (Op : Type) (Ans : Op → Type) (α : Type) where
  | ret (a : α)
  | call (op : Op) (k : Ans op → Prog Op Ans α)

variable {Op : Type} {Ans : Op → Type} {α β ε World Choice : Type}

namespace Prog

def bind : Prog Op Ans α → (α → Prog Op Ans β) → Prog Op Ans β
  | ret a, f => f a
  | call op k, f => call op (fun answer => bind (k answer) f)

instance : Monad (Prog Op Ans) where
  pure := ret
  bind := bind

/-- One awaited operation. -/
def await (op : Op) : Prog Op Ans (Ans op) := call op ret

/-- The continuation of a `?`: an error ends the program. -/
def andOk (p : Prog Op Ans (Except ε α)) (f : α → Prog Op Ans (Except ε β)) :
    Prog Op Ans (Except ε β) :=
  bind p fun
    | .ok a => f a
    | .error e => ret (.error e)

end Prog

open Prog List

/-- The environment lets an operation succeed, or fail with a message. -/
inductive Reply where
  | ok
  | err (e : String)
  deriving DecidableEq, Repr

def Reply.result : Reply → Except String Unit
  | .ok => .ok ()
  | .err e => .error e

/-- What an operation answers and does, given a choice of the environment. -/
abbrev Handler (Op : Type) (Ans : Op → Type) (World Choice : Type) :=
  World → (op : Op) → Choice → Ans op × World

variable (handle : Handler Op Ans World Choice)

/-- Runs a program on a list of choices, to its end or to the end of the list. -/
def exec : Prog Op Ans α → World → List Choice → Prog Op Ans α × World
  | ret a, w, _ => (ret a, w)
  | call op k, w, [] => (call op k, w)
  | call op k, w, c :: cs => exec (k (handle w op c).1) (handle w op c).2 cs

/-- A run can be stopped and continued. -/
theorem exec_append (p : Prog Op Ans α) (w : World) (first second : List Choice) :
    exec handle p w (first ++ second) =
      exec handle (exec handle p w first).1 (exec handle p w first).2 second := by
  induction p generalizing w first with
  | ret a => cases second <;> rfl
  | call op k ih =>
    cases first with
    | nil => rfl
    | cons c cs => exact ih _ _ cs

/-- A program returns if it is given enough choices. -/
theorem exec_returns {p : Prog Op Ans α} (w : World) (choices : Nat → Choice) :
    ∃ n a w', exec handle p w ((List.range n).map choices) = (ret a, w') := by
  induction p generalizing w choices with
  | ret a => exact ⟨0, a, w, rfl⟩
  | call op k ih =>
    obtain ⟨n, a, w', returned⟩ :=
      ih (handle w op (choices 0)).1 (handle w op (choices 0)).2 fun i => choices (i + 1)
    apply Exists.intro (n + 1)
    apply Exists.intro a
    apply Exists.intro w'
    rw [range_succ_eq_map, map_cons, map_map]
    exact returned

/-- `I` holds in every world the program reaches, and `Q` of its result where it returns. -/
def Always (I : World → Prop) (Q : α → World → Prop) : Prog Op Ans α → World → Prop
  | ret a, w => I w ∧ Q a w
  | call op k, w => I w ∧ ∀ c, Always I Q (k (handle w op c).1) (handle w op c).2

variable {handle} {I J : World → Prop} {Q R : α → World → Prop}

variable {p : Prog Op Ans α} {w : World}

/-- What every operation keeps holds wherever a program is stopped. -/
theorem exec_keeps {S : World → Prop} (keeps : ∀ w op c, S w → S (handle w op c).2)
    (p : Prog Op Ans α) (start : S w) (choices : List Choice) :
    S (exec handle p w choices).2 := by
  induction p generalizing w choices with
  | ret a => exact start
  | call op k ih =>
    cases choices with
    | nil => exact start
    | cons c cs => exact ih _ (keeps w op c start) cs

/-- A program that is stopped anywhere still satisfies its assertion. -/
theorem Always.exec_inv (h : Always handle I Q p w) (choices : List Choice) :
    I (exec handle p w choices).2 := by
  induction p generalizing w choices with
  | ret a => exact h.1
  | call op k ih =>
    cases choices with
    | nil => exact h.1
    | cons c cs => exact ih _ (h.2 c) cs

/-- A program that returns satisfies its postcondition. -/
theorem Always.exec_post {w' : World} {a : α} (h : Always handle I Q p w) {choices : List Choice}
    (returned : exec handle p w choices = (Prog.ret a, w')) : Q a w' := by
  induction p generalizing w choices with
  | ret b =>
    obtain ⟨rfl, rfl⟩ := returned
    exact h.2
  | call op k ih =>
    cases choices with
    | nil => cases returned
    | cons c cs => exact ih _ (h.2 c) returned

theorem Always.mono (h : Always handle I Q p w) (hI : ∀ w, I w → J w) (hQ : ∀ a w, Q a w → R a w) :
    Always handle J R p w := by
  induction p generalizing w with
  | ret a => exact ⟨hI w h.1, hQ a w h.2⟩
  | call op k ih => exact ⟨hI w h.1, fun c => ih _ (h.2 c)⟩

/-- What every operation keeps holds along with the assertion. -/
theorem Always.and_kept {S : World → Prop} (keeps : ∀ w op c, S w → S (handle w op c).2)
    (h : Always handle I Q p w) (start : S w) :
    Always handle (fun w => I w ∧ S w) (fun a w => Q a w ∧ S w) p w := by
  induction p generalizing w with
  | ret a => exact ⟨⟨h.1, start⟩, h.2, start⟩
  | call op k ih =>
    apply And.intro ⟨h.1, start⟩
    intro c
    exact ih _ (h.2 c) (keeps w op c start)

theorem Always.ret {a : α} (hI : I w) (hQ : Q a w) : Always handle I Q (Prog.ret a) w :=
  ⟨hI, hQ⟩

theorem Always.call {op : Op} {k : Ans op → Prog Op Ans α} (hI : I w)
    (next : ∀ c, Always handle I Q (k (handle w op c).1) (handle w op c).2) :
    Always handle I Q (Prog.call op k) w :=
  ⟨hI, next⟩

theorem Always.await {op : Op} {f : Ans op → Prog Op Ans α} (hI : I w)
    (next : ∀ c, Always handle I Q (f (handle w op c).1) (handle w op c).2) :
    Always handle I Q ((Prog.await op).bind f) w :=
  ⟨hI, next⟩

theorem Always.bind {f : α → Prog Op Ans β} {Q' : β → World → Prop} (h : Always handle I Q p w)
    (next : ∀ a w, I w → Q a w → Always handle I Q' (f a) w) :
    Always handle I Q' (p.bind f) w := by
  induction p generalizing w with
  | ret a => exact next a w h.1 h.2
  | call op k ih => exact ⟨h.1, fun c => ih _ (h.2 c)⟩

theorem Always.andOk {p : Prog Op Ans (Except ε α)} {f : α → Prog Op Ans (Except ε β)}
    {Q : Except ε α → World → Prop} {Q' : Except ε β → World → Prop} (h : Always handle I Q p w)
    (next : ∀ a w, I w → Q (.ok a) w → Always handle I Q' (f a) w)
    (failed : ∀ e w, I w → Q (.error e) w → Q' (.error e) w) :
    Always handle I Q' (p.andOk f) w := by
  refine h.bind fun result w hI hQ => ?_
  cases result with
  | ok a => exact next a w hI hQ
  | error e => exact ⟨hI, failed e w hI hQ⟩

end Dbx.Lib.Program
