import Dbx.Source.StateMachine
import Dbx.Source.TwoPhaseCommit

/-!
# The state entry of a transaction

`TwoPhaseCommit::execute` (`two_phase_commit.rs:146-230`) keeps an entry `2pc_<id>` in the
state machine beside its log. It creates the entry and, once the log is final, asks for the
transition to `completed` or `failed`; the answer is dropped. The table of transitions
(`state_persistence.rs:643-669`) has neither of them from `created`, so the entry stays
`created` in every run (`entry_never_follows`).

All operations of the backend succeed here; the participants may answer anything. The row of
the entry may exist before the call.
-/
namespace Dbx.Guarantees.StateEntry

open Dbx.Lib.Program Dbx.Source Dbx.Source.TwoPhaseCommit

variable {π : Type}

/-- The log of the transaction and the row of its entry in the store. -/
structure Records where
  log : Option TransactionLog := none
  row : Option StateMachine.Row := none

/-- A state-machine call on a backend whose operations succeed. -/
def runCall {α : Type} : StateMachine.Action α → Option StateMachine.Row → α × Option StateMachine.Row
  | .ret a, row => (a, row)
  | .call op k, row =>
    let (answer, row) := StateMachine.backend row op .ok
    runCall (k answer) row

/-- The state-machine call of a request of the coordinator. -/
def callOf (transactionId : String) (request : StateRequest) :
    StateMachine.Action (Except String StateMachine.StateEntry) :=
  let key := "2pc_" ++ transactionId
  match request with
  | .create => StateMachine.createState key "\x7b\"phase\":\"begin\"\x7d"
  | .completed => StateMachine.transition key .completed
  | .failed => StateMachine.transition key .failed

def handle (transactionId : String) : Handler (Op π) Op.Ans Records Reply := fun w op choice =>
  match op with
  | .loadLog => (.ok w.log, w)
  | .saveLog log => (.ok (), { w with log := some log })
  | .stateMachine request =>
    let (result, row) := runCall (callOf transactionId request) w.row
    (result.map fun _ => (), { w with row := row })
  | .prepare _ | .commit _ | .rollback _ => (choice.result, w)

/-- The state that the entry is in. -/
def entryState (w : Records) : Option String := w.row.map (·.value.currentState)

def logStatus (w : Records) : Option String := w.log.map (·.status)

/-- The log has reached its end. -/
def Final (w : Records) : Prop :=
  logStatus w ∈ [some "committed", some "rolled_back", some "mixed"]

/-- The entry says what the log says. -/
def Follows (w : Records) : Prop :=
  (entryState w = some "completed" ↔ logStatus w = some "committed") ∧
    (entryState w = some "failed" ↔ logStatus w = some "rolled_back" ∨ logStatus w = some "mixed")

variable {w : Records}

/-- A transition that the table does not have leaves the row as it is. -/
theorem transition_created {target : StateMachine.StateTransition} (key : String)
    (created : entryState w = some "created")
    (forbidden : StateMachine.isValidTransition .created target = false) :
    (runCall (StateMachine.transition key target) w.row).2 = w.row := by
  obtain ⟨row, stored, state⟩ := Option.map_eq_some_iff.mp created
  have current : StateMachine.StateTransition.fromStr row.value.currentState = some .created := by
    rw [state]
    rfl
  simp [StateMachine.transition, StateMachine.transitionLoop, Prog.andOk,
    Prog.await, Prog.bind, runCall, StateMachine.backend, StateMachine.loadState, stored, current,
    forbidden]

theorem create_created (transactionId : String) (w : Records) (choice : Reply) :
    entryState (handle transactionId w (.stateMachine .create : Op π) choice).2 = some "created" := by
  obtain ⟨log, row⟩ := w
  cases row <;> rfl

/-- Once the entry is created no operation of the coordinator changes its state. -/
theorem created_kept (transactionId : String) (w : Records) (op : Op π) (choice : Reply)
    (created : entryState w = some "created") :
    entryState (handle transactionId w op choice).2 = some "created" := by
  cases op with
  | loadLog | saveLog | prepare | commit | rollback => exact created
  | stateMachine request =>
    cases request with
    | create => exact create_created transactionId w choice
    | completed | failed =>
      show (runCall (StateMachine.transition _ _) w.row).2.map (·.value.currentState) = _
      rw [transition_created _ created (by decide)]
      exact created

section

variable (info : π → ParticipantInfo) (transactionId : String) (participants : List π)
  (start : Records) (choices : List Reply) (result : Except String TransactionLog) (w : Records)
  (returned : exec (handle transactionId) (execute info transactionId participants) start choices =
    (.ret result, w))
include returned

/-- A call that returns has created the entry with its second operation. -/
theorem entry_created : entryState w = some "created" := by
  match choices with
  | [] | [_] => cases returned
  | first :: second :: choices =>
    have last := congrArg Prod.snd returned
    rw [← show _ = w from last]
    exact exec_keeps (created_kept transactionId) _ (create_created transactionId _ second) choices

/-- No run of `execute` that returns with a final log leaves an entry that says so. -/
theorem entry_never_follows (final : Final w) : entryState w = some "created" ∧ ¬ Follows w := by
  have created := entry_created info transactionId participants start choices result w returned
  refine ⟨created, fun follows => ?_⟩
  rw [Follows, created] at follows
  obtain ⟨completed, failed⟩ := follows
  simp only [Final, List.mem_cons, List.not_mem_nil, or_false] at final
  obtain committed | rolledBack | mixed := final
  · exact absurd (completed.mpr committed) (by decide)
  · exact absurd (failed.mpr (.inl rolledBack)) (by decide)
  · exact absurd (failed.mpr (.inr mixed)) (by decide)

end

def onlyInfo (_ : Unit) : ParticipantInfo := ⟨"orders", "orders", "owner"⟩

def runOf (participants : List Unit) (choices : List Reply) :=
  exec (handle "a") (execute onlyInfo "a" participants) {} choices

/-- The only participant refuses to prepare. -/
theorem refused_entry_created :
    let refused := (runOf [()] (.replicate 4 .ok ++ .err "no" :: .replicate 6 .ok)).2
    entryState refused = some "created" ∧ ¬ Follows refused :=
  entry_never_follows onlyInfo "a" [()] {} (.replicate 4 .ok ++ .err "no" :: .replicate 6 .ok) _ _
    rfl (by unfold Final; decide)

/-- A transaction without participants commits, and its entry stays as it was created. -/
theorem committed_entry_created :
    ∃ log w, runOf [] (.replicate 12 .ok) = (.ret (.ok log), w) ∧
      logStatus w = some "committed" ∧ entryState w = some "created" := by
  refine ⟨_, _, rfl, ?_, ?_⟩
  all_goals decide

end Dbx.Guarantees.StateEntry
