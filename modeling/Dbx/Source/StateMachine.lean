import Dbx.Lib.Pool

/-!
# The state machine over the local store

Model of `StateMachine::create_state` and `transition`
(`crates/dbx-core/src/state_persistence.rs:592-778`) on one key of `LocalBackend`
(`state_persistence.rs:36-80`), whose rows are kept by `Storage::save_state`,
`load_state` and `compare_and_swap_state` (`storage.rs:4253-4352`).

Each of the three store operations is one atomic step; it may instead fail with a
message, and then has no effect. Serialisation of entries is lossless, so the store
holds entries. Metadata is JSON text. Versions do not overflow `u64`. The unused
`payload` column and the log lines are left out.
-/
namespace Dbx.Source.StateMachine

open Dbx.Lib.Program

inductive StateTransition where
  | created | running | paused | oscSyncing | completed | failed | cancelled | rollingBack
  | fullyRolledBack | partiallyRolledBack | recoveryRequired
  deriving DecidableEq, Repr

namespace StateTransition

def asStr : StateTransition → String
  | created => "created"
  | running => "running"
  | paused => "paused"
  | oscSyncing => "osc_syncing"
  | completed => "completed"
  | failed => "failed"
  | cancelled => "cancelled"
  | rollingBack => "rolling_back"
  | fullyRolledBack => "fully_rolled_back"
  | partiallyRolledBack => "partially_rolled_back"
  | recoveryRequired => "recovery_required"

def fromStr (s : String) : Option StateTransition :=
  match s with
  | "created" => some created
  | "running" => some running
  | "paused" => some paused
  | "osc_syncing" => some oscSyncing
  | "completed" => some completed
  | "failed" => some failed
  | "cancelled" => some cancelled
  | "rolling_back" => some rollingBack
  | "fully_rolled_back" => some fullyRolledBack
  | "partially_rolled_back" => some partiallyRolledBack
  | "recovery_required" => some recoveryRequired
  | _ => none

@[simp] theorem fromStr_asStr (state : StateTransition) : fromStr state.asStr = some state := by
  cases state <;> rfl

end StateTransition

def allowedTransitions : List (StateTransition × List StateTransition) :=
  [(.created, [.running, .cancelled]),
    (.running, [.paused, .oscSyncing, .completed, .failed]),
    (.paused, [.running, .cancelled]),
    (.oscSyncing, [.completed, .failed]),
    (.completed, [.rollingBack, .fullyRolledBack]),
    (.failed, [.running, .cancelled, .rollingBack, .recoveryRequired]),
    (.cancelled, []),
    (.rollingBack, [.fullyRolledBack, .partiallyRolledBack, .recoveryRequired]),
    (.fullyRolledBack, []),
    (.partiallyRolledBack, [.recoveryRequired]),
    (.recoveryRequired, [])]

def isValidTransition (source target : StateTransition) : Bool :=
  allowedTransitions.any fun (state, allowed) => state == source && allowed.contains target

structure StateEntry where
  key : String
  currentState : String
  version : Nat
  metadata : String
  deriving DecidableEq, Repr

/-! ## The store -/

structure Row where
  value : StateEntry
  contentType : String
  version : Nat
  deriving DecidableEq, Repr

/-- The upsert: a new row has version 1, an existing one has its version raised. -/
def saveState (row : Option Row) (value : StateEntry) (contentType : String) : Row :=
  match row with
  | none => ⟨value, contentType, 1⟩
  | some row => ⟨value, contentType, row.version + 1⟩

def loadState (row : Option Row) : Option (StateEntry × String) :=
  row.map fun row => (row.value, row.contentType)

def compareAndSwapState (row : Option Row) (expectedVersion : Option Nat) (newValue : StateEntry)
    (contentType : String) : Bool × Option Row :=
  match row, expectedVersion with
  | none, none => (true, some ⟨newValue, contentType, 1⟩)
  | some current, some expected =>
    if current.version = expected then
      (true, some ⟨newValue, contentType, current.version + 1⟩)
    else (false, row)
  | _, _ => (false, row)

/-- The backend operations the state machine awaits. -/
inductive Op where
  | save (value : StateEntry)
  | load
  | compareAndSwap (old : Option StateEntry) (new : StateEntry)
  deriving DecidableEq, Repr

abbrev Op.Ans : Op → Type
  | .save _ => Except String Unit
  | .load => Except String (Option StateEntry)
  | .compareAndSwap _ _ => Except String Bool

/-- `LocalBackend`. -/
def backend (row : Option Row) (op : Op) (reply : Reply) : op.Ans × Option Row :=
  match op, reply with
  | .save value, .ok => (.ok (), some (saveState row value "application/octet-stream"))
  | .save _, .err e => (.error e, row)
  | .load, .ok => (.ok ((loadState row).map Prod.fst), row)
  | .load, .err e => (.error e, row)
  | .compareAndSwap old new, .ok =>
    let (success, row) := compareAndSwapState row (old.map StateEntry.version) new "application/json"
    (.ok success, row)
  | .compareAndSwap _ _, .err e => (.error e, row)

/-! ## The state machine -/

abbrev Action (α : Type) := Prog Op Op.Ans α

def createState (key metadata : String) : Action (Except String StateEntry) :=
  let entry : StateEntry := ⟨key, StateTransition.created.asStr, 1, metadata⟩
  (Prog.await (Op.save entry)).andOk fun _ => .ret (.ok entry)

/-- The entry whose version the backend compares with the row's. -/
def oldEntry (key : String) (expectedVersion : Nat) : StateEntry := ⟨key, "", expectedVersion, "null"⟩

def compareAndSwap (key : String) (expectedVersion : Nat) (newState : StateEntry) :
    Action (Except String Bool) :=
  Prog.await (Op.compareAndSwap (some (oldEntry key expectedVersion)) newState)

/-- The entry a transition writes. -/
def advance (entry : StateEntry) (target : StateTransition) : StateEntry :=
  { entry with currentState := target.asStr, version := entry.version + 1 }

def maxRetries : Nat := 3

/-- The loop of `transition`, with the attempts that are left. -/
def transitionLoop (key : String) (target : StateTransition) :
    Nat → Action (Except String StateEntry)
  | 0 => .ret (.error ("CAS failed after " ++ toString maxRetries ++ " retries for state key: "
      ++ key))
  | attempts + 1 =>
    Prog.andOk (Prog.await Op.load) fun
      | none => .ret (.error ("State not found: " ++ key))
      | some entry =>
        match StateTransition.fromStr entry.currentState with
        | none => .ret (.error ("Invalid current state: " ++ entry.currentState))
        | some current =>
          if isValidTransition current target then
            (compareAndSwap key entry.version (advance entry target)).andOk fun success =>
            if success then .ret (.ok (advance entry target))
            else transitionLoop key target attempts
          else .ret (.error ("Invalid transition: " ++ current.asStr ++ " -> " ++ target.asStr))

def transition (key : String) (target : StateTransition) : Action (Except String StateEntry) :=
  transitionLoop key target (maxRetries + 1)

/-! ## Clients -/

inductive Request where
  | create (metadata : String)
  | transition (target : StateTransition)
  deriving DecidableEq, Repr

def program (key : String) : Request → Action (Except String StateEntry)
  | .create metadata => createState key metadata
  | .transition target => transition key target

/-- One operation that was carried out: by which call, and the row before and after it. -/
structure Step where
  call : Nat
  op : Op
  reply : Reply
  before : Option Row
  after : Option Row
  deriving DecidableEq, Repr

/-- The row of the key, and the operations carried out so far. -/
structure World where
  row : Option Row := none
  trace : List Step := []

def handle (i : Nat) : Handler Op Op.Ans World Reply := fun w op reply =>
  ((backend w.row op reply).1,
    ⟨(backend w.row op reply).2, w.trace ++ [⟨i, op, reply, w.row, (backend w.row op reply).2⟩]⟩)

abbrev Clients := Pool Request Op Op.Ans (Except String StateEntry) World

/-- What a run of interleaved calls comes to, from an empty store. -/
def afterEvents (key : String) (events : List (Event Request Reply)) : Clients :=
  Pool.run handle (program key) { world := {} } events

end Dbx.Source.StateMachine
