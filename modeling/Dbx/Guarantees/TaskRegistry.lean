import Dbx.Lib.Runs
import Dbx.Source.TaskSupervisor

/-!
# Which tasks the supervisor can reach

A task that has been accepted and is still to be stopped should be the one registered under
its key, and the key of a `spawn_once` task should be free once the task has ended. A
`spawn_once` task removes its key when its body has returned, whatever is registered there
by then, and one that panics removes nothing
(`crates/dbx-core/src/task_supervisor.rs:43-69, 97-99`). `CleanStep` is what a step must
meet for that to do no harm, and along a run it is exactly what is needed.
-/
namespace Dbx.Guarantees.TaskRegistry

open Dbx.Lib.Text Dbx.Lib.Runs Dbx.Source.TaskSupervisor World List Option Function

/-- Not ended, and neither aborted nor drained by a shutdown. -/
def Live (task : Task) : Prop :=
  task.phase ≠ .ended ∧ task.aborted = false ∧ task.drained = false

/-- Task `i` is aborted. -/
def isAborted (world : World) (i : Nat) : Prop :=
  ∃ task, world.spawned[i]? = some task ∧ task.aborted = true

def isDrained (world : World) (i : Nat) : Prop :=
  ∃ task, world.spawned[i]? = some task ∧ task.drained = true

/-- No task is out of reach, and the keys of ended `spawn_once` tasks are free again. -/
structure Supervised (world : World) : Prop where
  registered : ∀ i task, world.spawned[i]? = some task → Live task →
    world.tasks task.key = some i
  stoppable : ∀ i task, world.spawned[i]? = some task → Live task →
    isAborted (world.stop task.key) i
  drainable : ∀ i task, world.spawned[i]? = some task → Live task →
    isDrained world.shutdown.drain i
  reusable : ∀ i task, world.spawned[i]? = some task → task.once = true → task.phase = .ended →
    (∀ j, world.tasks task.key = some j → j = i) → world.accepting = true →
    (world.spawnOnce task.key).1 = true

/-- The step does no harm: a task that removes its key finds there itself or a task that is
not live, and a `spawn_once` task that panics is not registered or the supervisor has been
shut down. -/
def CleanStep (world : World) : Event → Prop
  | .removeCompleted i => ∀ task, world.spawned[i]? = some task → task.phase = .returned →
      ∀ j other, world.tasks task.key = some j → j ≠ i → world.spawned[j]? = some other →
        ¬ Live other
  | .panics i => ∀ task, world.spawned[i]? = some task → task.phase = .running →
      task.once = true → world.accepting = true → world.tasks task.key ≠ some i
  | _ => True

/-- Registered tasks have been spawned under their key and have not been stopped. -/
def Known (world : World) : Prop :=
  ∀ key i, world.tasks key = some i → ∃ task, world.spawned[i]? = some task ∧ task.key = key ∧
    task.aborted = false ∧ task.drained = false

/-! ## What `Supervised` amounts to -/

/-- Every live task is registered under its key. -/
def Registered (world : World) : Prop :=
  ∀ i task, world.spawned[i]? = some task → Live task → world.tasks task.key = some i

/-- No ended `spawn_once` task is registered while tasks are accepted. -/
def Freed (world : World) : Prop :=
  ∀ i task, world.spawned[i]? = some task → task.once = true → task.phase = .ended →
    world.accepting = true → world.tasks task.key ≠ some i

section

variable {world : World} {i : Nat} {task : Task} (spawned : world.spawned[i]? = some task)
  (registered : world.tasks task.key = some i)
include spawned registered

theorem stop_reaches : isAborted (world.stop task.key) i := by
  apply Exists.intro task.abort
  simp [stop, registered, abortOption, onTask, remove, spawned, Task.abort]

theorem drain_reaches : isDrained world.shutdown.drain i := by
  apply Exists.intro { task with drained := true }
  simp [World.shutdown, World.drain, spawned, registered]

end

theorem supervised_iff {world : World} : Supervised world ↔ Registered world ∧ Freed world := by
  constructor
  · intro h
    constructor
    · exact h.registered
    · intro i task spawned once ended accepting registered
      have accepted := h.reusable i task spawned once ended
        (fun j hj => some.inj (hj.symm.trans registered)) accepting
      simp [spawnOnce, registered] at accepted
  · intro ⟨registered, freed⟩
    constructor
    · exact registered
    · intro i task spawned live
      exact stop_reaches spawned (registered i task spawned live)
    · intro i task spawned live
      exact drain_reaches spawned (registered i task spawned live)
    · intro i task spawned once ended alone accepting
      have free : world.tasks task.key = none := by
        cases found : world.tasks task.key with
        | none => rfl
        | some j =>
          rw [alone j found] at found
          exact absurd found (freed i task spawned once ended accepting)
      simp [spawnOnce, accepting, free]

/-! ## Steps of one task -/

/-- The task keeps its name, and nothing makes it live again. -/
structure Keeps (f : Task → Task) : Prop where
  key : ∀ task, (f task).key = task.key
  once : ∀ task, (f task).once = task.once
  flags : ∀ task, task.aborted = false → task.drained = false →
    (f task).aborted = false ∧ (f task).drained = false
  live : ∀ task, Live (f task) → Live task

/-- A `spawn_once` task does not end by this step either, unless it has been aborted. -/
structure Quiet (f : Task → Task) : Prop extends Keeps f where
  ends : ∀ task, task.once = true → (f task).phase = .ended →
    task.phase = .ended ∨ task.aborted = true

theorem keeps_panics : Keeps Task.panics := by
  constructor <;> intro task <;> unfold Task.panics <;> grind [Live]

/-- The steps of a single task are quiet, apart from a panic and the end of a `spawn_once` task. -/
theorem step_cases (world : World) (event : Event) :
    (∃ i f, Quiet f ∧ world.step event = world.onTask i f) ∨ (∃ key, event = .spawnReplace key) ∨
      (∃ key, event = .spawnOnce key) ∨ (∃ key, event = .stop key) ∨ event = .shutdown ∨
      event = .drain ∨ (∃ i, event = .panics i) ∨ ∃ i, event = .removeCompleted i := by
  cases event with
  | spawnReplace | spawnOnce | stop | shutdown | drain | panics | removeCompleted => simp
  | sendStart i | deadline i | resume i | suspend i | cancelled i | bodyReturns i =>
    refine .inl ⟨i, _, ?_, rfl⟩
    constructor
    · constructor <;> grind [Live, Task.abort, Task.resume, Task.suspend, Task.cancelled,
        Task.bodyReturns]
    · grind [Task.abort, Task.resume, Task.suspend, Task.cancelled, Task.bodyReturns]

variable {task : Task} {previous : Option Nat} {world : World}

section OneTask

variable {world : World} {i : Nat} {f : Task → Task}

theorem onTask_spawned {j : Nat} (h : (world.onTask i f).spawned[j]? = some task) :
    ∃ before, world.spawned[j]? = some before ∧ (task = before ∧ j ≠ i ∨ task = f before ∧ j = i) := by
  simp only [onTask, getElem?_modify] at h
  obtain ⟨before, found, changed⟩ := Option.map_eq_some_iff.mp h
  apply Exists.intro before
  constructor
  · exact found
  · grind

theorem known_onTask (known : Known world) (keeps : Keeps f) : Known (world.onTask i f) := by
  intro key j registered
  obtain ⟨task, spawned, hkey, aborted, drained⟩ := known key j registered
  by_cases same : i = j
  · apply Exists.intro (f task)
    have flags := keeps.flags task aborted drained
    simp [onTask, same, spawned, keeps.key, hkey, flags.1, flags.2]
  · apply Exists.intro task
    simp [onTask, same, spawned, hkey, aborted, drained]

theorem registered_onTask (registered : Registered world) (keeps : Keeps f) :
    Registered (world.onTask i f) := by
  intro j task spawned live
  obtain ⟨before, found, ⟨rfl, _⟩ | ⟨rfl, _⟩⟩ := onTask_spawned spawned
  · exact registered j task found live
  · rw [keeps.key]
    exact registered j before found (keeps.live before live)

theorem freed_onTask (known : Known world) (freed : Freed world) (quiet : Quiet f) :
    Freed (world.onTask i f) := by
  intro j task spawned once ended accepting registered
  obtain ⟨before, found, ⟨rfl, _⟩ | ⟨rfl, _⟩⟩ := onTask_spawned spawned
  · exact freed j task found once ended accepting registered
  rw [quiet.key] at registered
  rw [quiet.once] at once
  obtain ended | aborted := quiet.ends before once ended
  · exact freed j before found once ended accepting registered
  obtain ⟨other, same, _, active, _⟩ := known before.key j registered
  rw [found] at same
  cases same
  rw [aborted] at active
  cases active

end OneTask

/-! ## Steps of the map -/

variable {key other : Str} {i : Nat}

theorem remove_some : (world.remove key).tasks other = some i ↔
    other ≠ key ∧ world.tasks other = some i := by
  simp only [remove, update_apply]
  grind

theorem register_some : (world.register task).tasks key = some i ↔
    key = task.key ∧ i = world.spawned.length ∨ key ≠ task.key ∧ world.tasks key = some i := by
  simp only [register, update_apply]
  grind

section Map

variable {world : World}

theorem abortOption_spawned {j : Nat} (h : (world.abortOption previous).spawned[j]? = some task) :
    ∃ before, world.spawned[j]? = some before ∧ task.key = before.key ∧ task.once = before.once ∧
      task.phase = before.phase ∧ task.drained = before.drained ∧
      (task.aborted = true ∧ previous = some j ∨ task.aborted = before.aborted ∧ previous ≠ some j) := by
  cases previous with
  | none => exact ⟨task, h, rfl, rfl, rfl, rfl, Or.inr ⟨rfl, by simp⟩⟩
  | some i =>
    obtain ⟨before, found, ⟨rfl, other⟩ | ⟨rfl, rfl⟩⟩ := onTask_spawned h
    · exact ⟨task, found, rfl, rfl, rfl, rfl, Or.inr ⟨rfl, by simpa using Ne.symm other⟩⟩
    · exact ⟨before, found, rfl, rfl, rfl, rfl, Or.inl ⟨rfl, rfl⟩⟩

section

variable (known : Known world)
include known

/-- Aborting a task that is no longer registered. -/
theorem known_abortOption (gone : ∀ i, previous = some i → ∀ key, world.tasks key ≠ some i) :
    Known (world.abortOption previous) := by
  cases previous with
  | none => exact known
  | some i =>
    intro key j registered
    have other : i ≠ j := by
      intro same
      subst same
      exact gone i rfl key registered
    obtain ⟨task, spawned, rest⟩ := known key j registered
    apply Exists.intro task
    simp [abortOption, onTask, other, spawned, rest]

theorem known_remove : Known (world.remove key) := by
  intro other i registered
  exact known other i (remove_some.mp registered).2

/-- A task is registered under its own key only. -/
theorem Known.key_unique (first : world.tasks key = some i)
    (second : world.tasks other = some i) : key = other := by
  obtain ⟨task, spawned, rfl, _⟩ := known key i first
  obtain ⟨again, respawned, rfl, _⟩ := known other i second
  rw [spawned] at respawned
  cases respawned
  rfl

theorem known_register (active : task.aborted = false) (kept : task.drained = false) :
    Known (world.register task) := by
  intro key i registered
  obtain ⟨rfl, rfl⟩ | ⟨_, registered⟩ := register_some.mp registered
  · apply Exists.intro task
    simp [register, active, kept]
  obtain ⟨before, spawned, rest⟩ := known key i registered
  apply Exists.intro before
  have bound := (List.getElem?_eq_some_iff.mp spawned).1
  simp [register, getElem?_append_left bound, spawned, rest]

theorem known_stop : Known (world.stop key) := by
  apply known_abortOption (known_remove known)
  intro i previous other registered
  obtain ⟨different, registered⟩ := remove_some.mp registered
  exact different (known.key_unique registered previous)

theorem known_spawnReplace : Known (world.spawnReplace key).2 := by
  unfold spawnReplace
  split
  · exact known
  apply known_abortOption (known_register known rfl rfl)
  intro i previous other registered
  obtain ⟨task, spawned, _⟩ := known key i previous
  have bound := (List.getElem?_eq_some_iff.mp spawned).1
  obtain ⟨_, rfl⟩ | ⟨different, registered⟩ := register_some.mp registered
  · omega
  · exact different (known.key_unique registered previous)

theorem known_spawnOnce : Known (world.spawnOnce key).2 := by
  unfold spawnOnce
  split
  · exact known
  · exact known_register known rfl rfl

theorem known_drain : Known world.drain := by
  unfold World.drain
  split
  · exact known
  · intro key i registered
    cases registered

end

theorem keeps_ended : Keeps fun task => { task with phase := .ended } := by
  constructor <;> intro task <;> grind [Live]

theorem known_removeCompleted (known : Known world) : Known (world.removeCompleted i) := by
  unfold removeCompleted
  split
  · split
    · exact known_onTask (known_remove known) keeps_ended
    · exact known
  · exact known

/-- The tasks after a registration are those before it and the new one. -/
theorem register_spawned {new : Task} {j : Nat} (h : (world.register new).spawned[j]? = some task) :
    world.spawned[j]? = some task ∧ j < world.spawned.length ∨
      task = new ∧ j = world.spawned.length := by
  simp only [register, getElem?_append] at h
  split at h
  · exact Or.inl ⟨h, by assumption⟩
  have position : j - world.spawned.length = 0 := by
    by_contra positive
    rw [getElem?_eq_none (by simp; omega)] at h
    cases h
  rw [position] at h
  simp only [getElem?_cons_zero, some.injEq] at h
  exact Or.inr ⟨h.symm, by omega⟩

/-- Only the aborted task may be missing from the map. -/
theorem registered_abortOption
    (others : ∀ (j : Nat) task, world.spawned[j]? = some task → Live task → previous ≠ some j →
      world.tasks task.key = some j) : Registered (world.abortOption previous) := by
  intro j task spawned live
  obtain ⟨before, found, hkey, _, hphase, hdrained, ⟨aborted, _⟩ | ⟨haborted, other⟩⟩ :=
    abortOption_spawned spawned
  · rw [live.2.1] at aborted
    cases aborted
  have liveBefore : Live before := by
    unfold Live
    rw [← hphase, ← haborted, ← hdrained]
    exact live
  rw [hkey]
  cases previous <;> exact others j before found liveBefore other

section

variable (registered : Registered world)
include registered

/-- A new task takes the place of the one registered under its key. -/
theorem registered_register (new : Task) :
    Registered ((world.register new).abortOption (world.tasks new.key)) := by
  apply registered_abortOption
  intro j task spawned live other
  obtain ⟨old, _⟩ | ⟨rfl, rfl⟩ := register_spawned spawned
  · have was := registered j task old live
    have different : task.key ≠ new.key := by
      intro same
      rw [same] at was
      exact other was
    exact register_some.mpr (.inr ⟨different, was⟩)
  · exact register_some.mpr (.inl ⟨rfl, rfl⟩)

theorem registered_spawnReplace : Registered (world.spawnReplace key).2 := by
  unfold spawnReplace
  split
  · exact registered
  · exact registered_register registered { key, once := false, phase := .suspended }

theorem registered_spawnOnce : Registered (world.spawnOnce key).2 := by
  unfold spawnOnce
  split
  · exact registered
  rename_i accepted
  have free : world.tasks key = none := by
    cases found : world.tasks key with
    | none => rfl
    | some i => simp [found] at accepted
  have new := registered_register registered { key, once := true, phase := .waiting }
  rw [free] at new
  exact new

theorem registered_stop : Registered (world.stop key) := by
  apply registered_abortOption
  intro j task spawned live other
  have was := registered j task spawned live
  have different : task.key ≠ key := by
    intro same
    rw [same] at was
    exact other was
  exact remove_some.mpr ⟨different, was⟩

theorem registered_drain : Registered world.drain := by
  unfold World.drain
  split
  · exact registered
  intro j task spawned live
  simp only [getElem?_mapIdx, map_eq_some_iff] at spawned
  obtain ⟨before, found, changed⟩ := spawned
  split at changed
  · subst changed
    cases live.2.2
  · rename_i unregistered
    subst changed
    exact absurd (registered j before found live) unregistered

end

theorem freed_drain (freed : Freed world) : Freed world.drain := by
  unfold World.drain
  split
  · exact freed
  · intro j task spawned once ended accepting registered
    cases registered

/-- A completed task removes its key: harmless exactly if no other live task is there. -/
theorem registered_removeCompleted (known : Known world) (registered : Registered world) :
    Registered (world.removeCompleted i) ↔ CleanStep world (.removeCompleted i) := by
  constructor
  · intro after task found returned j other there different spawned live
    obtain ⟨same, respawned, hkey, _⟩ := known task.key j there
    rw [spawned] at respawned
    cases respawned
    have gone : (world.removeCompleted i).spawned[j]? = some other := by
      simp [removeCompleted, found, returned, onTask, remove, Ne.symm different, spawned]
    have registered := after j other gone live
    simp [removeCompleted, found, returned, onTask, remove, hkey] at registered
  · intro clean j task spawned live
    unfold removeCompleted at spawned ⊢
    cases found : world.spawned[i]? with
    | none =>
      rw [found] at spawned
      exact registered j task spawned live
    | some completed =>
      rw [found] at spawned
      dsimp only at spawned ⊢
      by_cases returned : completed.phase = .returned
      · rw [if_pos returned] at spawned ⊢
        obtain ⟨before, was, ⟨rfl, different⟩ | ⟨rfl, _⟩⟩ := onTask_spawned spawned
        · have there := registered j task was live
          have otherKey : task.key ≠ completed.key := by
            intro same
            rw [same] at there
            exact clean completed found returned j task there different was live
          exact remove_some.mpr ⟨otherKey, there⟩
        · exact absurd rfl live.1
      · rw [if_neg returned] at spawned ⊢
        exact registered j task spawned live

section

variable (freed : Freed world)
include freed

theorem freed_register {new : Task} (starts : new.phase ≠ .ended) : Freed (world.register new) := by
  intro j task spawned once ended accepting registered
  obtain ⟨found, bound⟩ | ⟨rfl, rfl⟩ := register_spawned spawned
  · obtain ⟨_, rfl⟩ | ⟨_, registered⟩ := register_some.mp registered
    · omega
    · exact freed j task found once ended accepting registered
  · exact starts ended

theorem freed_abortOption : Freed (world.abortOption previous) := by
  intro j task spawned once ended accepting registered
  obtain ⟨before, found, hkey, honce, hphase, _⟩ := abortOption_spawned spawned
  rw [hkey] at registered
  rw [honce] at once
  rw [hphase] at ended
  cases previous <;> exact freed j before found once ended accepting registered

theorem freed_remove : Freed (world.remove key) := by
  intro j task spawned once ended accepting registered
  exact freed j task spawned once ended accepting (remove_some.mp registered).2

theorem freed_spawnReplace : Freed (world.spawnReplace key).2 := by
  unfold spawnReplace
  split
  · exact freed
  · apply freed_abortOption
    exact freed_register freed (by simp)

theorem freed_spawnOnce : Freed (world.spawnOnce key).2 := by
  unfold spawnOnce
  split
  · exact freed
  · exact freed_register freed (by simp)

theorem freed_removeCompleted : Freed (world.removeCompleted i) := by
  unfold removeCompleted
  cases found : world.spawned[i]? with
  | none => exact freed
  | some completed =>
    dsimp only
    split
    · intro j task spawned once ended accepting registered
      obtain ⟨before, was, ⟨rfl, _⟩ | ⟨rfl, rfl⟩⟩ := onTask_spawned spawned
      · exact freed_remove freed j task was once ended accepting registered
      · have same : before = completed := some.inj (was.symm.trans found)
        subst same
        simp [onTask, remove] at registered
    · exact freed

/-- A panic leaves the key behind: harmless exactly if the task is not registered or no
task is accepted any more. -/
theorem freed_panics : Freed (world.onTask i Task.panics) ↔ CleanStep world (.panics i) := by
  constructor
  · intro after task found running once accepting registered
    have ended : (world.onTask i Task.panics).spawned[i]? = some { task with phase := .ended } := by
      simp [onTask, found, Task.panics, running]
    exact after i _ ended once rfl accepting registered
  · intro clean j task spawned once ended accepting registered
    obtain ⟨before, found, ⟨rfl, _⟩ | ⟨rfl, rfl⟩⟩ := onTask_spawned spawned
    · exact freed j task found once ended accepting registered
    rw [keeps_panics.key] at registered
    rw [keeps_panics.once] at once
    by_cases running : before.phase = .running
    · exact clean before found running once accepting registered
    have unchanged : before.panics = before := by
      unfold Task.panics
      rw [if_neg running]
    rw [unchanged] at ended
    exact freed j before found once ended accepting registered

end

end Map

/-! ## Runs -/

theorem known_step (world : World) (event : Event) (known : Known world) :
    Known (world.step event) := by
  rcases step_cases world event with ⟨i, f, quiet, next⟩ | ⟨key, rfl⟩ | ⟨key, rfl⟩ | ⟨key, rfl⟩ |
    rfl | rfl | ⟨i, rfl⟩ | ⟨i, rfl⟩
  · rw [next]
    exact known_onTask known quiet.toKeeps
  · exact known_spawnReplace known
  · exact known_spawnOnce known
  · exact known_stop known
  · exact known
  · exact known_drain known
  · exact known_onTask known keeps_panics
  · exact known_removeCompleted known

theorem freed_shutdown : Freed world.shutdown := by
  intro i task _ _ _ accepting
  cases accepting

/-- A clean step keeps the registration and the free keys. -/
theorem clean_step {event : Event} (known : Known world) (registered : Registered world)
    (freed : Freed world) (clean : CleanStep world event) :
    Registered (world.step event) ∧ Freed (world.step event) := by
  rcases step_cases world event with ⟨i, f, quiet, next⟩ | ⟨key, rfl⟩ | ⟨key, rfl⟩ | ⟨key, rfl⟩ |
    rfl | rfl | ⟨i, rfl⟩ | ⟨i, rfl⟩
  · rw [next]
    exact ⟨registered_onTask registered quiet.toKeeps, freed_onTask known freed quiet⟩
  · exact ⟨registered_spawnReplace registered, freed_spawnReplace freed⟩
  · exact ⟨registered_spawnOnce registered, freed_spawnOnce freed⟩
  · exact ⟨registered_stop registered, freed_abortOption (freed_remove freed)⟩
  · exact ⟨registered, freed_shutdown⟩
  · exact ⟨registered_drain registered, freed_drain freed⟩
  · exact ⟨registered_onTask registered keeps_panics, (freed_panics freed).mpr clean⟩
  · exact ⟨(registered_removeCompleted known registered).mpr clean, freed_removeCompleted freed⟩

/-- A step that is not clean loses a task or a key. -/
theorem clean_of_step {event : Event} (known : Known world) (registered : Registered world)
    (freed : Freed world) (after : Registered (world.step event) ∧ Freed (world.step event)) :
    CleanStep world event := by
  cases event with
  | panics i => exact (freed_panics freed).mp after.2
  | removeCompleted i => exact (registered_removeCompleted known registered).mp after.1
  | _ => trivial

/-- Along every run of a new supervisor, no task is out of reach and the keys of ended tasks
are free, exactly if every step of the run is clean. -/
theorem supervised_run_iff (events : List Event) :
    (∀ world ∈ states World.step {} events, Supervised world) ↔
      StepsMeet World.step CleanStep {} events := by
  apply forall_states_iff known_step
  · intro world event known supervised clean
    obtain ⟨registered, freed⟩ := supervised_iff.mp supervised
    exact supervised_iff.mpr (clean_step known registered freed clean)
  · intro world event known supervised after
    obtain ⟨registered, freed⟩ := supervised_iff.mp supervised
    exact clean_of_step known registered freed (supervised_iff.mp after)
  · intro key i registered
    cases registered
  · apply supervised_iff.mpr
    constructor
    · intro i task spawned
      simp at spawned
    · intro i task spawned
      simp at spawned

/-- A stopped task that is just returning removes the key of the task spawned after it. -/
def replacedRun : List Event :=
  let key := "sync".toList
  [.spawnOnce key, .sendStart 0, .resume 0, .bodyReturns 0, .stop key, .spawnOnce key,
    .removeCompleted 0]

/-- The task panics, and its key stays taken. -/
def panickedRun : List Event :=
  let key := "sync".toList
  [.spawnOnce key, .sendStart 0, .resume 0, .panics 0]

/-- After the first run the second task is live and not registered; after the second run no
task can be spawned under the key. -/
theorem supervisor_loses_tasks : (replacedRun.foldl World.step {}).spawned[1]? =
      some { key := "sync".toList, once := true, phase := .waiting } ∧
    (replacedRun.foldl World.step {}).tasks "sync".toList = none ∧
    (panickedRun.foldl World.step {}).spawned =
      [{ key := "sync".toList, once := true, phase := .ended, started := true }] ∧
    (panickedRun.foldl World.step {}).tasks "sync".toList = some 0 ∧
    ((panickedRun.foldl World.step {}).spawnOnce "sync".toList).1 = false := by
  decide

end Dbx.Guarantees.TaskRegistry
