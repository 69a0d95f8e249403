import Mathlib.Data.List.Chain
import Dbx.Source.StateMachine

/-!
# The history of a state key under concurrent clients

Any number of `create_state` and `transition` calls interleave on one key. In every run
in which a `create_state` writes only where there is no row yet, the payload's version is
the row's, every successful transition is one row change from the state it loaded, every
row change belongs to one successful call, and the states the row takes form a path of
the allowed transitions.

A `create_state` on an existing row raises the row's version and writes version 1 into
the payload. The two versions then differ, and no later compare-and-swap succeeds.
-/
namespace Dbx.Guarantees.TransitionHistory

open Dbx.Lib.Program Dbx.Source.StateMachine List Option

/-! ## What is read off a trace -/

/-- The operations that changed the row. -/
def changes (w : World) : List Step := w.trace.filter fun step => step.before ≠ step.after

def changesBy (i : Nat) (w : World) : List Step := (changes w).filter (·.call == i)

/-- The entry that call `i` loaded in this step. -/
def loaded (i : Nat) (step : Step) : Option StateEntry :=
  if step.call = i ∧ step.op = .load ∧ step.reply = .ok then step.before.map (·.value) else none

def loadsBy (i : Nat) (w : World) : List StateEntry := w.trace.filterMap (loaded i)

/-- The sequence of `current_state` values the row has taken. -/
def stateHistory (w : World) : List String :=
  (changes w).filterMap fun step => step.after.map (·.value.currentState)

/-- A path of the allowed transitions that starts in `created`. -/
def IsPath (states : List String) : Prop :=
  ∃ path : List StateTransition, states = path.map StateTransition.asStr ∧
    (∀ first ∈ path.head?, first = .created) ∧
    path.IsChain fun source target => isValidTransition source target = true

/-- The one row change of a call: from the entry the call loaded last to `entry`. -/
structure MovedOnce (i : Nat) (target : StateTransition) (entry : StateEntry) (w : World) :
    Prop where
  change : ∃ step old current, changesBy i w = [step] ∧
    step.before.map (·.value) = some old ∧ step.after.map (·.value) = some entry ∧
    (loadsBy i w).getLast? = some old ∧
    old.currentState = StateTransition.asStr current ∧ entry.currentState = target.asStr ∧
    isValidTransition current target = true

/-- The one row change of a creation: the first row. -/
structure CreatedOnce (i : Nat) (entry : StateEntry) (w : World) : Prop where
  change : ∃ step, changesBy i w = [step] ∧ step.before = none ∧
    step.after.map (·.value) = some entry

/-- What a returned call has done to the row. -/
def Returned (i : Nat) : Request → Except String StateEntry → World → Prop
  | .transition target, .ok entry, w => MovedOnce i target entry w
  | .create _, .ok entry, w => CreatedOnce i entry w
  | _, .error _, w => changesBy i w = []

structure HistoryCorrect (clients : Clients) : Prop where
  versions : ∀ row, clients.world.row = some row → row.value.version = row.version
  returned : ∀ i request result, clients.calls[i]? = some (request, .ret result) →
    Returned i request result clients.world
  underWay : ∀ i request op k, clients.calls[i]? = some (request, .call op k) →
    changesBy i clients.world = []
  owned : ∀ step ∈ changes clients.world, step.call < clients.calls.length
  path : IsPath (stateHistory clients.world)

/-- A `create_state` writes only where there is no row. -/
def CreatesFirst (w : World) (op : Op) (reply : Reply) : Prop :=
  ∀ value, op = .save value → reply = .ok → w.row = none

/-! ## One operation -/

variable {op : Op} {reply : Reply}

section Operation

variable {i : Nat} {w : World} {op : Op} {reply : Reply}

/-- An operation leaves the row alone, saves, or swaps a row of the expected version. -/
theorem backend_cases {row : Option Row} :
    (backend row op reply).2 = row ∨
    (∃ value, op = .save value ∧ reply = .ok ∧
      (backend row op reply).2 = some (saveState row value "application/octet-stream")) ∨
    ∃ old new, op = .compareAndSwap old new ∧ reply = .ok ∧
      (backend row op reply).2 =
        (compareAndSwapState row (old.map StateEntry.version) new "application/json").2 := by
  cases reply with
  | err e => cases op <;> exact .inl rfl
  | ok =>
    cases op with
    | load => exact .inl rfl
    | save value => exact .inr (.inl ⟨value, rfl, rfl, rfl⟩)
    | compareAndSwap old new => exact .inr (.inr ⟨old, new, rfl, rfl, rfl⟩)

theorem compareAndSwapState_some (row : Row) (expected : Option Nat) (new : StateEntry)
    (contentType : String) :
    compareAndSwapState (some row) expected new contentType =
      if expected = some row.version then (true, some ⟨new, contentType, row.version + 1⟩)
      else (false, some row) := by
  cases expected with
  | none => rfl
  | some expected =>
    simp [compareAndSwapState, eq_comm]

/-- A row never goes away, and every change raises its version. -/
theorem backend_advances {row : Row} :
    ∃ row', (backend (some row) op reply).2 = some row' ∧
      (row' = row ∨ row.version < row'.version) := by
  rcases backend_cases with same | ⟨value, -, -, saved⟩ | ⟨old, new, -, -, swapped⟩
  · exact ⟨row, same, .inl rfl⟩
  · exact ⟨_, saved, .inr (Nat.lt_succ_self row.version)⟩
  · rw [swapped, compareAndSwapState_some]
    split
    · exact ⟨_, rfl, .inr (Nat.lt_succ_self row.version)⟩
    · exact ⟨row, rfl, .inl rfl⟩

theorem changes_of_same (same : (backend w.row op reply).2 = w.row) :
    changes (handle i w op reply).2 = changes w := by
  simp [changes, handle, same]

theorem changes_of_new (new : (backend w.row op reply).2 ≠ w.row) :
    changes (handle i w op reply).2 =
      changes w ++ [⟨i, op, reply, w.row, (backend w.row op reply).2⟩] := by
  simp [changes, handle, Ne.symm new]

theorem changesBy_of_same (same : (backend w.row op reply).2 = w.row) :
    changesBy i (handle i w op reply).2 = changesBy i w := by
  unfold changesBy
  rw [changes_of_same same]

theorem changesBy_of_new (new : (backend w.row op reply).2 ≠ w.row) :
    changesBy i (handle i w op reply).2 =
      changesBy i w ++ [⟨i, op, reply, w.row, (backend w.row op reply).2⟩] := by
  unfold changesBy
  rw [changes_of_new new]
  simp

end Operation

/-! ## What a call may assume of the others -/

/-- Other calls leave the traces of call `i` alone, and change the row only by raising its
version. -/
structure Others (i : Nat) (w w' : World) : Prop where
  changes : changesBy i w' = changesBy i w
  loads : loadsBy i w' = loadsBy i w
  row : ∀ row, w.row = some row →
    ∃ row', w'.row = some row' ∧ (row' = row ∨ row.version < row'.version)

variable {i : Nat}

theorem others_handle {j : Nat} (w : World) (op : Op) (reply : Reply) (apart : i ≠ j) :
    Others i w (handle j w op reply).2 where
  changes := by
    unfold changesBy
    by_cases same : (backend w.row op reply).2 = w.row
    · rw [changes_of_same same]
    · rw [changes_of_new same]
      simp [Ne.symm apart]
  loads := by simp [loadsBy, handle, loaded, Ne.symm apart]
  row := by
    intro row found
    simp only [handle, found]
    exact backend_advances

theorem rely_others : Rely handle Others where
  refl i w := ⟨rfl, rfl, fun row found => ⟨row, found, .inl rfl⟩⟩
  trans i w₁ w₂ w₃ first second := by
    refine ⟨second.changes.trans first.changes, second.loads.trans first.loads, ?_⟩
    intro row found
    obtain ⟨row₂, found₂, advanced₂⟩ := first.row row found
    obtain ⟨row₃, found₃, advanced₃⟩ := second.row row₂ found₂
    refine ⟨row₃, found₃, ?_⟩
    rcases advanced₂ with rfl | advanced₂
    · exact advanced₃
    · rcases advanced₃ with rfl | advanced₃
      · exact .inr advanced₂
      · exact .inr (by omega)
  other i j w op reply := others_handle w op reply

/-! ## The invariant -/

/-- The versions agree, and the states so far are a path that ends in the row's state. -/
structure Inv (w : World) : Prop where
  versions : ∀ row, w.row = some row → row.value.version = row.version
  path : ∃ path : List StateTransition, stateHistory w = path.map StateTransition.asStr ∧
    (∀ first ∈ path.head?, first = .created) ∧
    (path.IsChain fun source target => isValidTransition source target = true) ∧
    path.getLast?.map StateTransition.asStr = w.row.map (·.value.currentState)

theorem Inv.of_same {w : World} (h : Inv w) (same : (backend w.row op reply).2 = w.row) :
    Inv (handle i w op reply).2 := by
  have history : stateHistory (handle i w op reply).2 = stateHistory w := by
    unfold stateHistory
    rw [changes_of_same same]
  refine ⟨fun row found => h.versions row (same ▸ found), ?_⟩
  rw [history]
  simp only [handle, same]
  exact h.path

theorem asStr_injective : Function.Injective StateTransition.asStr := by
  intro a b same
  have := congrArg StateTransition.fromStr same
  simpa using this

theorem asStr_of_fromStr {s : String} {state : StateTransition}
    (h : StateTransition.fromStr s = some state) : s = state.asStr := by
  unfold StateTransition.fromStr at h
  split at h
  all_goals first | (cases h; rfl) | cases h

/-- The state may follow the row's: `created` where there is no row. -/
def MayFollow (row : Option Row) (target : StateTransition) : Prop :=
  match row with
  | none => target = .created
  | some row => ∃ current : StateTransition, row.value.currentState = current.asStr ∧
      isValidTransition current target = true

theorem Inv.of_new {w : World} {row : Row} (target : StateTransition) (h : Inv w)
    (new : (backend w.row op reply).2 = some row) (changed : some row ≠ w.row)
    (version : row.value.version = row.version) (state : row.value.currentState = target.asStr)
    (may : MayFollow w.row target) : Inv (handle i w op reply).2 := by
  obtain ⟨path, history, first, chain, last⟩ := h.path
  have history' : stateHistory (handle i w op reply).2 =
      (path ++ [target]).map StateTransition.asStr := by
    unfold stateHistory at history ⊢
    rw [changes_of_new (new ▸ changed), filterMap_append, history]
    simp [new, state]
  refine ⟨?_, path ++ [target], history', ?_, ?_, ?_⟩
  · intro row' found
    simp only [handle, new, some.injEq] at found
    rw [← found, version]
  · cases path with
    | cons p rest => simpa using first
    | nil =>
      -- the first change: there was no row
      cases found : w.row with
      | none =>
        have created : target = .created := by
          rw [found] at may
          exact may
        simpa using created
      | some row => simp [found] at last
  · refine List.isChain_append.mpr ⟨chain, isChain_singleton _, ?_⟩
    intro current isLast next isNext
    have isNext : target = next := by simpa using isNext
    rw [isLast] at last
    cases found : w.row with
    | none => simp [found] at last
    | some row =>
      rw [found] at last may
      obtain ⟨current', state', valid⟩ := may
      have same : current = current' := asStr_injective (by simpa [state'] using last)
      rw [same, ← isNext]
      exact valid
  · simp [handle, new, state]

/-! ## The calls -/

section Calls

variable {i : Nat} {w : World} (key : String)

abbrev SafeCall (i : Nat) (request : Request) (p : Action (Except String StateEntry)) (w : World) :
    Prop :=
  Safe handle Others CreatesFirst Inv i (fun w => changesBy i w = []) (Returned i request) p w

theorem safe_createState {metadata : String} (fresh : changesBy i w = []) :
    SafeCall i (.create metadata) (createState key metadata) w := by
  refine ⟨fresh, fun w' reply steady inv allowed => ?_⟩
  have untouched : changesBy i w' = [] := steady.changes.trans fresh
  cases reply with
  | err e => exact ⟨inv.of_same rfl, (changesBy_of_same rfl).trans untouched⟩
  | ok =>
    have empty : w'.row = none := allowed _ rfl rfl
    have new : (backend w'.row (.save ⟨key, StateTransition.created.asStr, 1, metadata⟩) .ok).2 =
        some ⟨⟨key, StateTransition.created.asStr, 1, metadata⟩, "application/octet-stream", 1⟩ := by
      simp [backend, saveState, empty]
    have changed : (backend w'.row (.save ⟨key, StateTransition.created.asStr, 1, metadata⟩) .ok).2 ≠
        w'.row := by
      rw [new, empty]
      simp
    have mine := changesBy_of_new (i := i) changed
    rw [untouched, nil_append] at mine
    refine ⟨inv.of_new .created new (new ▸ changed) rfl rfl ?_, _, mine, empty, ?_⟩
    · rw [empty]
      rfl
    · simp [new]

/-- The swap of an attempt that loaded `row`. -/
theorem safe_swap {row : Row} {current target : StateTransition}
    {retry : Action (Except String StateEntry)} (fresh : changesBy i w = [])
    (found : w.row = some row) (version : row.value.version = row.version)
    (load : (loadsBy i w).getLast? = some row.value)
    (state : row.value.currentState = current.asStr)
    (valid : isValidTransition current target = true)
    (safeRetry : ∀ w, changesBy i w = [] → SafeCall i (.transition target) retry w) :
    SafeCall i (.transition target)
      ((compareAndSwap key row.value.version (advance row.value target)).andOk fun success =>
        if success then .ret (.ok (advance row.value target)) else retry) w := by
  refine ⟨fresh, fun w' reply steady inv _ => ?_⟩
  have untouched : changesBy i w' = [] := steady.changes.trans fresh
  obtain ⟨row', found', advanced⟩ := steady.row row found
  cases reply with
  | err e => exact ⟨inv.of_same rfl, (changesBy_of_same rfl).trans untouched⟩
  | ok =>
  have swap : backend w'.row (.compareAndSwap (some (oldEntry key row.value.version))
      (advance row.value target)) .ok =
      if row.version = row'.version then (.ok true,
        some ⟨advance row.value target, "application/json", row'.version + 1⟩)
      else (.ok false, w'.row) := by
    simp only [backend, found', compareAndSwapState_some, oldEntry, map_some, version,
      some.injEq]
    split <;> rfl
  by_cases same : row.version = row'.version
  · -- the versions agree, so the row is the one that was loaded
    have unchanged : row' = row := by
      rcases advanced with unchanged | later
      · exact unchanged
      · omega
    subst unchanged
    rw [if_pos rfl] at swap
    have changed : (backend w'.row (.compareAndSwap (some (oldEntry key row'.value.version))
        (advance row'.value target)) .ok).2 ≠ w'.row := by
      rw [swap, found']
      intro equal
      have := congrArg Row.version (some.inj equal)
      simp at this
    have mine := changesBy_of_new (i := i) changed
    rw [untouched, nil_append] at mine
    refine ⟨inv.of_new target (congrArg Prod.snd swap) (by rwa [swap] at changed) ?_ rfl ?_, ?_⟩
    · simp [advance, version]
    · rw [found']
      exact ⟨current, state, valid⟩
    · have answered : (handle i w' (.compareAndSwap (some (oldEntry key row'.value.version))
          (advance row'.value target)) .ok).1 = .ok true := congrArg Prod.fst swap
      rw [answered]
      refine ⟨_, row'.value, current, mine, ?_, ?_, ?_, state, rfl, valid⟩
      · simp [found']
      · simp [swap]
      · rw [← load, ← steady.loads]
        simp [loadsBy, handle, loaded]
  · rw [if_neg same] at swap
    have stays := congrArg Prod.snd swap
    refine ⟨inv.of_same stays, ?_⟩
    have answered : (handle i w' (.compareAndSwap (some (oldEntry key row.value.version))
        (advance row.value target)) .ok).1 = .ok false := congrArg Prod.fst swap
    rw [answered]
    exact safeRetry _ ((changesBy_of_same stays).trans untouched)

theorem safe_transitionLoop {target : StateTransition} {attempts : Nat}
    (fresh : changesBy i w = []) :
    SafeCall i (.transition target) (transitionLoop key target attempts) w := by
  induction attempts generalizing w with
  | zero => exact fresh
  | succ attempts ih =>
    refine ⟨fresh, fun w' reply steady inv _ => ?_⟩
    have untouched : changesBy i w' = [] := steady.changes.trans fresh
    have still : changesBy i (handle i w' .load reply).2 = [] := by
      rw [changesBy_of_same (by cases reply <;> rfl), untouched]
    refine ⟨inv.of_same (by cases reply <;> rfl), ?_⟩
    cases reply with
    | err e => exact still
    | ok =>
    cases found : w'.row with
    | none =>
      have answered : (handle i w' .load .ok).1 = .ok none := by
        simp [handle, backend, loadState, found]
      rw [answered]
      exact still
    | some row =>
      have answered : (handle i w' .load .ok).1 = .ok (some row.value) := by
        simp [handle, backend, loadState, found]
      rw [answered]
      simp only [Prog.bind]
      cases state : StateTransition.fromStr row.value.currentState with
      | none => exact still
      | some current =>
        by_cases valid : isValidTransition current target
        · simp only [valid, if_true]
          refine safe_swap key still (by exact found) (inv.versions row found) ?_
            (asStr_of_fromStr state) valid fun w fresh => ih fresh
          simp [loadsBy, handle, loaded, found]
        · simp only [valid]
          exact still

end Calls

/-! ## Runs -/

theorem Returned.of_others {request : Request} {result : Except String StateEntry} {w w' : World}
    (steady : Others i w w') (h : Returned i request result w) : Returned i request result w' := by
  cases result with
  | error e =>
    cases request <;> exact steady.changes.trans h
  | ok entry =>
    cases request with
    | create metadata =>
      obtain ⟨step, change, before, after⟩ := CreatedOnce.change h
      exact ⟨step, steady.changes.trans change, before, after⟩
    | transition target =>
      obtain ⟨step, old, current, change, before, after, load, states⟩ := MovedOnce.change h
      refine ⟨step, old, current, steady.changes.trans change, before, after, ?_, states⟩
      rw [steady.loads, load]

theorem obligations (key : String) : Pool.Obligations handle (program key) Others CreatesFirst Inv
      (fun i w => changesBy i w = []) (fun i w => changesBy i w = []) Returned where
  env := rely_others
  stableFresh i w w' steady fresh := steady.changes.trans fresh
  stableP i w w' steady fresh := steady.changes.trans fresh
  stableQ i request result w w' steady h := h.of_others steady
  start i request w fresh := by
    cases request with
    | create metadata => exact safe_createState key fresh
    | transition target => exact safe_transitionLoop key fresh

/-- The store is empty and nobody has called yet. -/
theorem initial_allSafe :
    Pool.AllSafe handle Others CreatesFirst Inv (fun i w => changesBy i w = [])
      (fun i w => changesBy i w = []) Returned ({ world := {} } : Clients) where
  world := ⟨by simp, [], rfl, by simp, .nil, rfl⟩
  unused _ _ := rfl
  calls := by simp

theorem historyCorrect_of_allSafe {clients : Clients}
    (safe : Pool.AllSafe handle Others CreatesFirst Inv (fun i w => changesBy i w = [])
      (fun i w => changesBy i w = []) Returned clients) : HistoryCorrect clients where
  versions := safe.world.versions
  returned i request result found := safe.calls i request _ found
  underWay i request op k found := (safe.calls i request _ found).1
  owned := by
    intro step member
    by_contra past
    have none := safe.unused step.call (by omega)
    have mine : step ∈ changesBy step.call clients.world := by
      simp [changesBy, member]
    rw [none] at mine
    cases mine
  path := by
    obtain ⟨path, history, first, chain, -⟩ := safe.world.path
    exact ⟨path, history, first, chain⟩

/-- In every run whose creations find no row, the history is correct in every state the run
passes through. -/
theorem history_correct (key : String) (events : List (Event Request Reply))
    (creates : Pool.RunAllowed handle (program key) CreatesFirst { world := {} } events) :
    ∀ reached, reached <+: events → HistoryCorrect (afterEvents key reached) := by
  intro reached earlier
  obtain ⟨later, rfl⟩ := earlier
  exact historyCorrect_of_allSafe
    (Pool.run_allSafe (obligations key) initial_allSafe creates.earlier)

/-- Two transitions race after a creation: the second loads before the first swaps. -/
theorem history_correct_race : let events : List (Event Request Reply) :=
      [.start (.create "null"), .step 0 .ok, .start (.transition .running), .step 1 .ok,
        .start (.transition .cancelled), .step 2 .ok, .step 1 .ok, .step 2 .ok]
    Pool.RunAllowed handle (program "k") CreatesFirst { world := {} } events ∧
      ∀ reached, reached <+: events → HistoryCorrect (afterEvents "k" reached) := by
  intro events
  have creates : Pool.RunAllowed handle (program "k") CreatesFirst { world := {} } events := by
    refine ⟨trivial, ?_, trivial, ?_, trivial, ?_, ?_, ?_, trivial⟩
    · exact fun _ _ _ _ _ _ _ => rfl
    all_goals
      intro _ _ _ found _ isSave
      cases found
      cases isSave
  exact ⟨creates, history_correct "k" events creates⟩

/-- A second `create_state` leaves version 1 in the payload of a row of version 2. -/
theorem history_incorrect_created_twice : ¬ HistoryCorrect (afterEvents "k"
      [.start (.create "null"), .step 0 .ok, .start (.create "null"), .step 1 .ok]) := by
  intro h
  have versions := h.versions _ rfl
  exact absurd versions (by decide)

end Dbx.Guarantees.TransitionHistory
