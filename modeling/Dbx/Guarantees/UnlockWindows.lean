import Dbx.Lib.Runs
import Dbx.Source.WriteUnlock

/-!
# When a write-unlock window is open

A call of `is_active` looks at the map once. What it answers is compared with the window that
was granted for its key, and not closed, at that moment of the call, and with the clock. A
call that has read an expired window removes it later, whatever stands there by then
(`write_unlock.rs:86-89`), and less than a millisecond counts as nothing. Where no step does
either (`CleanStep`), the answers are exact; no closed window is reported in any run.
-/
namespace Dbx.Guarantees.UnlockWindows

open Dbx.Lib.Runs Dbx.Source.WriteUnlock Function

/-- A world with what was granted. -/
structure History where
  world : World := {}
  /-- The end of the last window granted, unless `lock` has closed it. -/
  granted : WriteUnlockKey → Option Nat := fun _ => none
  /-- What was granted for the key of a call when the call looked at the map. -/
  seen : Nat → Option Nat := fun _ => none

def History.step (h : History) (event : Event) : History where
  world := (h.world.step event).1
  granted :=
    match event with
    | .insert i =>
      match h.world.calls i with
      | .inserting key _ expiresAt => Function.update h.granted key (some expiresAt)
      | _ => h.granted
    | .lock key => Function.update h.granted key none
    | _ => h.granted
  seen :=
    match event with
    | .get i =>
      match h.world.calls i with
      | .reading key => Function.update h.seen i (h.granted key)
      | _ => h.seen
    | _ => h.seen

/-- The window that call `i` saw is open. -/
def Open (h : History) (i : Nat) : Prop := ∃ e, h.seen i = some e ∧ h.world.now < e

/-- A call that returns with this step reports open windows only. -/
def NothingInvented (h : History) (event : Event) : Prop :=
  ∀ i millis, (h.world.step event).2 = some (.remaining i millis) → isActive millis = true →
    Open (h.step event) i

def NothingMissed (h : History) (event : Event) : Prop :=
  ∀ i millis, (h.world.step event).2 = some (.remaining i millis) → Open (h.step event) i →
    isActive millis = true

/-- What is removed has expired, and what is reported is open for a millisecond at least. -/
def CleanStep (h : History) : Event → Prop
  | .remove i => ∀ key e, h.world.calls i = .expired key → h.world.inner key = some e →
      e ≤ h.world.now
  | .readClock i => ∀ key e, h.world.calls i = .read key e → h.world.now < e →
      h.world.now + nanosPerMilli ≤ e
  | _ => True

/-! ## What holds in every state -/

/-- What a call knows of the window that it saw. -/
def Fits (now : Nat) (seen : Option Nat) : Call → Prop
  | .read _ e => seen = some e
  | .expired _ => ∀ e, seen = some e → e ≤ now
  | _ => True

/-- What stands in the map was granted last; if the steps are clean, an open window is there. -/
structure Inv (clean : Prop) (h : History) : Prop where
  latest : ∀ key e, h.world.inner key = some e → h.granted key = some e
  kept : clean → ∀ key e, h.granted key = some e → h.world.now < e → h.world.inner key = some e
  calls : ∀ i, Fits h.world.now (h.seen i) (h.world.calls i)

variable {h : History} {event : Event} {clean : Prop}

theorem fits_update {now i : Nat} {seen seen' : Nat → Option Nat} {calls : Nat → Call} {call : Call}
    (fits : ∀ j, Fits now (seen j) (calls j)) (same : ∀ j, j ≠ i → seen' j = seen j)
    (here : Fits now (seen' i) call) (j : Nat) :
    Fits now (seen' j) (Function.update calls i call j) := by
  by_cases other : j = i
  · subst other
    rwa [update_self]
  · rw [update_of_ne other, same j other]
    exact fits j

theorem Inv.step (inv : Inv clean h) (cleanStep : clean → CleanStep h event) :
    Inv clean (h.step event) := by
  obtain ⟨latest, kept, fits⟩ := inv
  cases event with
  | tick nanos =>
    refine ⟨latest, fun c key e given open_ => kept c key e given ?_, fun j => ?_⟩
    · exact Nat.lt_of_le_of_lt (Nat.le_add_right _ _) open_
    · have here := fits j
      simp only [History.step, World.step]
      cases call : h.world.calls j <;> simp only [call, Fits] at here ⊢
      · exact here
      · exact fun e saw => Nat.le_add_right_of_le (here e saw)
  | lock key =>
    refine ⟨fun other e => ?_, fun c other e => ?_, fits⟩
    all_goals
      simp only [History.step, World.step, World.setWindow, update_apply]
      split
    · exact id
    · exact latest other e
    · intro given
      cases given
    · exact kept c other e
  | unlock i key secs =>
    simp only [History.step, World.step]
    split
    · exact ⟨latest, kept, fits_update fits (fun _ _ => rfl) trivial⟩
    · exact ⟨latest, kept, fits⟩
    · exact ⟨latest, kept, fits⟩
  | insert i =>
    simp only [History.step, World.step]
    cases call : h.world.calls i with
    | inserting key duration expiresAt =>
      refine ⟨fun other e => ?_, fun c other e => ?_, fits_update fits (fun _ _ => rfl) trivial⟩
      all_goals
        simp only [World.setCall, World.setWindow, update_apply]
        split
      · exact id
      · exact latest other e
      · exact fun given _ => given
      · exact kept c other e
    | _ => exact ⟨latest, kept, fits⟩
  | remainingMs i key =>
    simp only [History.step, World.step]
    split
    · exact ⟨latest, kept, fits_update fits (fun _ _ => rfl) trivial⟩
    · exact ⟨latest, kept, fits⟩
  | get i =>
    simp only [History.step, World.step]
    cases call : h.world.calls i with
    | reading key =>
      have same : ∀ j, j ≠ i → update h.seen i (h.granted key) j = h.seen j :=
        fun j other => update_of_ne other _ _
      cases window : h.world.inner key with
      | none =>
        simp only [window]
        exact ⟨latest, kept, fits_update fits same trivial⟩
      | some e =>
        simp only [window]
        refine ⟨latest, kept, fits_update fits same ?_⟩
        simpa [Fits] using latest key e window
    | _ => exact ⟨latest, kept, fits⟩
  | readClock i =>
    simp only [History.step, World.step]
    have here := fits i
    cases call : h.world.calls i with
    | read key e =>
      rw [call] at here
      dsimp only
      split
      · refine ⟨latest, kept, fits_update fits (fun _ _ => rfl) fun e' saw => ?_⟩
        rwa [← Option.some.inj (here.symm.trans saw)]
      · exact ⟨latest, kept, fits_update fits (fun _ _ => rfl) trivial⟩
    | _ => exact ⟨latest, kept, fits⟩
  | remove i =>
    simp only [History.step, World.step]
    cases call : h.world.calls i with
    | expired key =>
      refine ⟨fun other e => ?_, fun c other e => ?_, fits_update fits (fun _ _ => rfl) trivial⟩
      all_goals
        simp only [World.setCall, World.setWindow, update_apply]
        split
      · intro held
        cases held
      · exact latest other e
      · rename_i same
        intro given open_
        have ended := cleanStep c key e call (same ▸ kept c other e given open_)
        exact absurd open_ (Nat.not_lt.mpr ended)
      · exact kept c other e
    | _ => exact ⟨latest, kept, fits⟩

/-! ## The answers -/

/-- The three ways in which `remaining_ms` returns. -/
theorem remaining_cases {w : World} {i millis : Nat}
    (answer : (w.step event).2 = some (.remaining i millis)) :
    (event = .get i ∧ ∃ key, w.calls i = .reading key ∧ w.inner key = none ∧ millis = 0) ∨
      (event = .readClock i ∧ ∃ key e, w.calls i = .read key e ∧ w.now < e ∧
        millis = asMillis (e - w.now)) ∨
      event = .remove i ∧ ∃ key, w.calls i = .expired key ∧ millis = 0 := by
  unfold World.step at answer
  repeat' split at answer
  all_goals
    cases answer
  · exact .inl ⟨rfl, _, ‹_›, ‹_›, rfl⟩
  · exact .inr (.inl ⟨rfl, _, _, ‹_›, Nat.not_le.mp ‹_›, rfl⟩)
  · exact .inr (.inr ⟨rfl, _, ‹_›, rfl⟩)

theorem Inv.nothingInvented (inv : Inv clean h) : NothingInvented h event := by
  intro i millis answer active
  obtain ⟨-, _, -, -, rfl⟩ | ⟨rfl, key, e, call, open_, -⟩ | ⟨-, _, -, rfl⟩ :=
    remaining_cases answer
  · cases active
  · have here := inv.calls i
    rw [call] at here
    exact ⟨e, here, by simpa [History.step, World.step, call, Nat.not_le.mpr open_]⟩
  · cases active

theorem Inv.nothingMissed (inv : Inv True h) (cleanStep : CleanStep h event) :
    NothingMissed h event := by
  intro i millis answer seesOpen
  obtain ⟨e, saw, open_⟩ := seesOpen
  have here := inv.calls i
  obtain ⟨rfl, key, call, none, -⟩ | ⟨rfl, key, e', call, open', rfl⟩ | ⟨rfl, key, call, -⟩ :=
    remaining_cases answer
  · simp only [History.step, World.step, call, none, update_self] at saw open_
    rw [inv.kept trivial key e saw open_] at none
    cases none
  · have long := cleanStep key e' call open'
    have positive : 0 < asMillis (e' - h.world.now) := Nat.div_pos (by omega) (by decide)
    simpa [isActive] using positive
  · rw [call] at here
    simp only [History.step, World.step, call] at saw open_
    exact absurd open_ (Nat.not_lt.mpr (here e saw))

theorem inv_start : Inv clean {} := ⟨nofun, nofun, fun _ => trivial⟩

/-- No window is reported that is not open, and where the steps are clean none is missed. -/
theorem unlock_windows_exact (events : List Event) :
    StepsMeet History.step NothingInvented {} events ∧
      (StepsMeet History.step CleanStep {} events →
        StepsMeet History.step NothingMissed {} events) := by
  constructor
  · exact StepsMeet.of_inv (fun _ _ inv _ => Inv.step inv False.elim)
      (fun _ _ inv _ => inv.nothingInvented) (inv_start : Inv False {}) stepsMeet_true
  · exact StepsMeet.of_inv (fun _ _ inv clean => inv.step fun _ => clean)
      (fun _ _ inv clean => inv.nothingMissed clean) inv_start

def ada : WriteUnlockKey := ⟨"ada".toList, "db".toList⟩

/-- A window of a minute, asked for at once. -/
theorem unlock_windows_exact_ada : StepsMeet History.step NothingMissed {}
    [.unlock 0 ada 60, .insert 0, .remainingMs 1 ada, .get 1, .readClock 1] := by
  refine (unlock_windows_exact _).2 ⟨trivial, trivial, trivial, trivial, ?_, trivial⟩
  rintro key e ⟨⟩ _
  decide

/-- A call that has read the first window removes the second. -/
theorem second_window_removed : ¬ StepsMeet History.step NothingMissed {}
    [.unlock 0 ada 60, .insert 0, .tick 60000000000, .remainingMs 1 ada, .get 1, .readClock 1,
      .unlock 2 ada 60, .insert 2, .remove 1, .remainingMs 3 ada, .get 3] := by
  intro ⟨_, _, _, _, _, _, _, _, _, _, missed, _⟩
  have found := missed 3 0 rfl ⟨120000000000, rfl, by decide⟩
  cases found

end Dbx.Guarantees.UnlockWindows
