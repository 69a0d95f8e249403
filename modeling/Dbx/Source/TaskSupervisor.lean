import Dbx.Lib.Text
import Mathlib.Logic.Function.Basic

/-!
# The task supervisor

Model of `TaskSupervisor` (`crates/dbx-core/src/task_supervisor.rs:9-114`) and of the steps
of the tasks it spawns. Each critical section of the task map is one event; a task is
polled between two suspension points, and an abort takes effect at such a point. The body
of a task is arbitrary: whenever it is polled it may suspend, return or panic.

`spawn_once` tasks wait for a signal that is sent after the map is unlocked. When their
body has returned they remove their key, without a suspension point in between. The
cancellation token only reaches the bodies and is left out, and so is `stop_and_wait`.
-/
namespace Dbx.Source.TaskSupervisor

open Dbx.Lib.Text

inductive Phase where
  /-- Before the start signal of `spawn_once`. -/
  | waiting
  | suspended
  | running
  /-- The body has returned, `remove_completed` has not been called. -/
  | returned
  | ended
  deriving DecidableEq, Repr

structure Task where
  key : Str
  /-- Spawned by `spawn_once`. -/
  once : Bool
  phase : Phase
  started : Bool := false
  aborted : Bool := false
  /-- Taken out of the map by `shutdown`. -/
  drained : Bool := false
  deriving DecidableEq, Repr

namespace Task

def abort (task : Task) : Task := { task with aborted := true }

/-- Polls the task, if it can go on. -/
def resume (task : Task) : Task :=
  if task.aborted then task
  else match task.phase with
    | .waiting => if task.started then { task with phase := .running } else task
    | .suspended => { task with phase := .running }
    | _ => task

def suspend (task : Task) : Task :=
  if task.phase = .running then { task with phase := .suspended } else task

/-- An aborted task at a suspension point does not go on. -/
def cancelled (task : Task) : Task :=
  if task.aborted ∧ (task.phase = .waiting ∨ task.phase = .suspended) then
    { task with phase := .ended }
  else task

def bodyReturns (task : Task) : Task :=
  if task.phase = .running then
    { task with phase := if task.once then .returned else .ended }
  else task

def panics (task : Task) : Task :=
  if task.phase = .running then { task with phase := .ended } else task

end Task

/-- The supervisor and the tasks spawned so far; a task is its position in the list. -/
structure World where
  accepting : Bool := true
  tasks : Str → Option Nat := fun _ => none
  spawned : List Task := []
  /-- Calls of `shutdown` that have not drained the map yet. -/
  draining : Nat := 0

namespace World

section

variable (world : World)

def onTask (i : Nat) (f : Task → Task) : World :=
  { world with spawned := world.spawned.modify i f }

def abortOption : Option Nat → World
  | some i => world.onTask i Task.abort
  | none => world

/-- Registers a new task under its key. -/
def register (task : Task) : World :=
  { world with
    tasks := Function.update world.tasks task.key (some world.spawned.length)
    spawned := world.spawned ++ [task] }

def spawnReplace (key : Str) : Bool × World :=
  if !world.accepting then (false, world)
  else
    let previous := world.tasks key
    (true, (world.register { key, once := false, phase := .suspended }).abortOption previous)

def spawnOnce (key : Str) : Bool × World :=
  if !world.accepting || (world.tasks key).isSome then (false, world)
  else (true, world.register { key, once := true, phase := .waiting })

def remove (key : Str) : World :=
  { world with tasks := Function.update world.tasks key none }

def stop (key : Str) : World :=
  (world.remove key).abortOption (world.tasks key)

/-- The first two lines of `shutdown`. -/
def shutdown : World :=
  { world with accepting := false, draining := world.draining + 1 }

def drain : World :=
  match world.draining with
  | 0 => world
  | draining + 1 =>
    { world with
      tasks := fun _ => none
      spawned := world.spawned.mapIdx fun i task =>
        if world.tasks task.key = some i then { task with drained := true } else task
      draining }

/-- After the deadline of `shutdown`, the tasks it has drained are aborted. -/
def deadline (i : Nat) : World :=
  world.onTask i fun task => if task.drained then task.abort else task

/-- The end of a `spawn_once` task whose body has returned. -/
def removeCompleted (i : Nat) : World :=
  match world.spawned[i]? with
  | some task =>
    if task.phase = .returned then
      (world.remove task.key).onTask i fun task => { task with phase := .ended }
    else world
  | none => world

end

inductive Event where
  | spawnReplace (key : Str)
  | spawnOnce (key : Str)
  | sendStart (i : Nat)
  | stop (key : Str)
  | shutdown
  | drain
  | deadline (i : Nat)
  | resume (i : Nat)
  | suspend (i : Nat)
  | cancelled (i : Nat)
  | bodyReturns (i : Nat)
  | panics (i : Nat)
  | removeCompleted (i : Nat)

def step (world : World) : Event → World
  | .spawnReplace key => (world.spawnReplace key).2
  | .spawnOnce key => (world.spawnOnce key).2
  | .sendStart i => world.onTask i fun task => { task with started := true }
  | .stop key => world.stop key
  | .shutdown => world.shutdown
  | .drain => world.drain
  | .deadline i => world.deadline i
  | .resume i => world.onTask i Task.resume
  | .suspend i => world.onTask i Task.suspend
  | .cancelled i => world.onTask i Task.cancelled
  | .bodyReturns i => world.onTask i Task.bodyReturns
  | .panics i => world.onTask i Task.panics
  | .removeCompleted i => world.removeCompleted i

end World

end Dbx.Source.TaskSupervisor
