import Dbx.Lib.Program

/-!
# The two-phase-commit coordinator

Model of `TwoPhaseCommit` (`crates/dbx-core/src/two_phase_commit.rs:9-371`) as a
program over its awaited operations: loads and saves of the transaction log, the
two state-machine calls, and the participants' `prepare`, `commit` and `rollback`.

The environment answers every operation, except that a save of the log succeeds.
The state machine stores under keys that start with `state:`, the log under
`2pc:tx:`, so the state-machine calls leave the log alone. Serialisation of the log
is taken to be lossless. Time stamps, metadata and log lines are left out: nothing
reads them.

The world keeps, besides the durable log, every answer a participant has given to
`commit`. No function of the source reads that history.
-/
namespace Dbx.Source.TwoPhaseCommit

open Dbx.Lib.Program

inductive TransactionStatus where
  | preparing | prepared | committing | committed | rollingBack | rolledBack | mixed | unknown
  deriving DecidableEq, Repr

namespace TransactionStatus

def asStr : TransactionStatus → String
  | preparing => "preparing"
  | prepared => "prepared"
  | committing => "committing"
  | committed => "committed"
  | rollingBack => "rolling_back"
  | rolledBack => "rolled_back"
  | mixed => "mixed"
  | unknown => "unknown"

def fromStr (s : String) : TransactionStatus :=
  match s with
  | "preparing" => preparing
  | "prepared" => prepared
  | "committing" => committing
  | "committed" => committed
  | "rolling_back" => rollingBack
  | "rolled_back" => rolledBack
  | "mixed" => mixed
  | _ => unknown

@[simp] theorem fromStr_asStr (status : TransactionStatus) : fromStr status.asStr = status := by
  cases status <;> rfl

end TransactionStatus

structure VoteResult where
  participantId : String
  vote : Bool
  reason : Option String
  deriving DecidableEq, Repr

structure ParticipantCommitResult where
  participantId : String
  committed : Bool
  error : Option String
  deriving DecidableEq, Repr

structure ParticipantInfo where
  id : String
  name : String
  role : String
  deriving DecidableEq, Repr

structure TransactionLog where
  transactionId : String
  status : String
  participants : List ParticipantInfo
  deriving DecidableEq, Repr

/-- The state-machine transitions the coordinator asks for. -/
inductive StateRequest where
  | create | completed | failed
  deriving DecidableEq, Repr

/-- The awaited operations; `π` is the type of participants. -/
inductive Op (π : Type) where
  | loadLog
  | saveLog (log : TransactionLog)
  | stateMachine (request : StateRequest)
  | prepare (p : π)
  | commit (p : π)
  | rollback (p : π)

abbrev Op.Ans {π : Type} : Op π → Type
  | .loadLog => Except String (Option TransactionLog)
  | _ => Except String Unit

abbrev Action (π α : Type) := Prog (Op π) Op.Ans α

def loadLog {π : Type} : Action π (Except String (Option TransactionLog)) := Prog.await Op.loadLog

def saveLog {π : Type} (log : TransactionLog) : Action π (Except String Unit) :=
  Prog.await (Op.saveLog log)

def stateMachine {π : Type} (request : StateRequest) : Action π (Except String Unit) :=
  Prog.await (Op.stateMachine request)

def prepare {π : Type} (p : π) : Action π (Except String Unit) := Prog.await (Op.prepare p)

def commit {π : Type} (p : π) : Action π (Except String Unit) := Prog.await (Op.commit p)

def rollback {π : Type} (p : π) : Action π (Except String Unit) := Prog.await (Op.rollback p)

section Coordinator

variable {π : Type} (info : π → ParticipantInfo)

def updateStatus (transactionId : String) (status : TransactionStatus) :
    Action π (Except String TransactionLog) :=
  loadLog.andOk fun
    | none => .ret (.error ("Transaction not found: " ++ transactionId))
    | some log =>
      let log : TransactionLog := { log with status := status.asStr }
      (saveLog log).andOk fun _ => .ret (.ok log)

/-- The participants are asked in order; the first refusal ends the vote. -/
def collectVotes : List π → Action π (List VoteResult)
  | [] => .ret []
  | p :: rest =>
    (prepare p).bind fun
      | .ok _ => (collectVotes rest).bind fun votes => .ret (⟨(info p).id, true, none⟩ :: votes)
      | .error e => .ret [⟨(info p).id, false, some e⟩]

def preparePhase (transactionId : String) (participants : List π) :
    Action π (Except String (List VoteResult)) :=
  (updateStatus transactionId .preparing).andOk fun _ =>
  (collectVotes info participants).bind fun results =>
  if results.all (·.vote) then
    (updateStatus transactionId .prepared).andOk fun _ => .ret (.ok results)
  else .ret (.ok results)

/-- One attempt over the pending participants: the results and who is still pending.
On the last attempt a failure is a result. -/
def commitAttempt (last : Bool) : List π → Action π (List ParticipantCommitResult × List π)
  | [] => .ret ([], [])
  | p :: rest =>
    (commit p).bind fun answer =>
    (commitAttempt last rest).bind fun (results, pending) =>
    match answer with
    | .ok _ => .ret (⟨(info p).id, true, none⟩ :: results, pending)
    | .error e =>
      if last then .ret (⟨(info p).id, false, some e⟩ :: results, pending)
      else .ret (results, p :: pending)

/-- `retries` more attempts may follow the next one. -/
def commitPhase (retries : Nat) (pending : List π) : Action π (List ParticipantCommitResult) :=
  match retries with
  | 0 => (commitAttempt info true pending).bind fun (results, _) => .ret results
  | retries + 1 =>
    (commitAttempt info false pending).bind fun (results, pending) =>
    if pending.isEmpty then .ret results
    else (commitPhase retries pending).bind fun more => .ret (results ++ more)

def collectRollbackErrors : List π → Action π (List String)
  | [] => .ret []
  | p :: rest =>
    (rollback p).bind fun answer =>
    (collectRollbackErrors rest).bind fun errors =>
    match answer with
    | .ok _ => .ret errors
    | .error e => .ret (((info p).id ++ ": " ++ e) :: errors)

def rollbackPhase (participants : List π) : Action π (Except String Unit) :=
  (collectRollbackErrors info participants).bind fun errors =>
  .ret (if errors.isEmpty then .ok () else .error ("; ".intercalate errors))

def allCommitted (participants : List π) (results : List ParticipantCommitResult) : Bool :=
  participants.isEmpty || (!results.isEmpty && results.all (·.committed))

def describeFailures (results : List ParticipantCommitResult) : String :=
  "; ".intercalate ((results.filter (!·.committed)).map fun r =>
    r.participantId ++ ": " ++ r.error.getD "unknown")

def describeRejections (votes : List VoteResult) : String :=
  ", ".intercalate ((votes.filter (!·.vote)).map fun v =>
    v.participantId ++ ": " ++ v.reason.getD "no reason")

/-- What a commit phase that did not commit everything is recorded as. -/
def finalStatus (results : List ParticipantCommitResult) : TransactionStatus :=
  if results.any (·.committed) then .mixed else .rolledBack

def execute (transactionId : String) (participants : List π) :
    Action π (Except String TransactionLog) :=
  (saveLog ⟨transactionId, TransactionStatus.preparing.asStr, participants.map info⟩).andOk
    fun _ =>
  (stateMachine .create).andOk fun _ =>
  (preparePhase info transactionId participants).andOk fun votes =>
  if votes.all (·.vote) then
    (updateStatus transactionId .committing).andOk fun _ =>
    (commitPhase info 2 participants).bind fun results =>
    if allCommitted participants results then
      (updateStatus transactionId .committed).andOk fun log =>
      (stateMachine .completed).bind fun _ => .ret (.ok log)
    else
      (updateStatus transactionId .rollingBack).andOk fun _ =>
      (rollbackPhase info participants).bind fun _ =>
      (updateStatus transactionId (finalStatus results)).andOk fun log =>
      (stateMachine .failed).bind fun _ =>
      .ret (.error ("Commit phase failed: " ++ describeFailures results ++ ". Status: "
        ++ log.status))
  else
    (updateStatus transactionId .rollingBack).andOk fun _ =>
    (rollbackPhase info participants).bind fun _ =>
    (updateStatus transactionId .rolledBack).andOk fun log =>
    (stateMachine .failed).bind fun _ =>
    .ret (.error ("Prepare phase failed: participants did not agree. Rejections: ["
      ++ describeRejections votes ++ "]. Status: " ++ log.status))

def recover (transactionId : String) (participants : List π) :
    Action π (Except String TransactionLog) :=
  loadLog.andOk fun
    | none => .ret (.error ("No transaction log found for: " ++ transactionId))
    | some log =>
      match TransactionStatus.fromStr log.status with
      | .preparing | .prepared =>
        (rollbackPhase info participants).andOk fun _ => updateStatus transactionId .rolledBack
      | .committing =>
        (commitPhase info 2 participants).bind fun results =>
        if allCommitted participants results then updateStatus transactionId .committed
        else
          (rollbackPhase info participants).andOk fun _ =>
          (updateStatus transactionId (finalStatus results)).andOk fun _ =>
          .ret (.error ("Recovery failed during commit: " ++ describeFailures results))
      | .rollingBack =>
        (rollbackPhase info participants).andOk fun _ => updateStatus transactionId .rolledBack
      | .committed | .rolledBack | .mixed => .ret (.ok log)
      | .unknown =>
        .ret (.error ("Unknown transaction status for " ++ transactionId ++ ": cannot recover"))

end Coordinator

/-! ## The world -/

structure World (π : Type) where
  /-- The durable transaction log. -/
  log : Option TransactionLog := none
  /-- Every answer to `commit` so far: who answered, and whether it was `Ok`. -/
  answers : List (π × Bool) := []

def handle {π : Type} : Handler (Op π) Op.Ans (World π) Reply := fun w op choice =>
  match op with
  | .loadLog => match choice with
    | .ok => (.ok w.log, w)
    | .err e => (.error e, w)
  | .saveLog log => (.ok (), { w with log := some log })
  | .stateMachine _ => (choice.result, w)
  | .prepare _ => (choice.result, w)
  | .commit p => (choice.result, { w with answers := w.answers ++ [(p, choice == .ok)] })
  | .rollback _ => (choice.result, w)

/-- One `execute` call on a fresh transaction, stopped where its choices end. -/
def afterExecute {π : Type} (info : π → ParticipantInfo) (transactionId : String)
    (participants : List π) (choices : List Reply) : World π :=
  (exec handle (execute info transactionId participants) {} choices).2

/-- One `recover` call, stopped where its choices end. -/
def afterRecover {π : Type} (info : π → ParticipantInfo) (transactionId : String)
    (participants : List π) (w : World π) (choices : List Reply) : World π :=
  (exec handle (recover info transactionId participants) w choices).2

end Dbx.Source.TwoPhaseCommit
