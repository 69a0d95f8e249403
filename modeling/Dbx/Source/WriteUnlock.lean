import Mathlib.Logic.Function.Basic
import Dbx.Lib.Text

/-!
# Write-unlock windows

`write_unlock.rs`, lines 14–91. Each acquisition of the lock around the map is an event, and
so is each reading of the clock; the calls are numbered. Times are nanoseconds. The owner a
call runs for is part of its key.
-/
namespace Dbx.Source.WriteUnlock

open Dbx.Lib.Text

structure WriteUnlockKey where
  ownerScope : Str
  connectionId : Str
  deriving DecidableEq, Repr

def nanosPerMilli : Nat := 1000000

def asMillis (nanos : Nat) : Nat := nanos / nanosPerMilli

def parseDurationSecs (secs : Nat) : Except Str Nat :=
  if secs == 60 || secs == 300 then .ok (secs * 1000 * nanosPerMilli)
  else .error "Write unlock duration must be 1 minute or 5 minutes.".toList

/-- The checks of `unlock`. -/
def unlockDuration (key : WriteUnlockKey) (secs : Nat) : Except Str Nat :=
  if (trim key.connectionId).isEmpty then .error "Connection id is required.".toList
  else parseDurationSecs secs

inductive Call where
  | idle
  /-- `unlock` has read the clock. -/
  | inserting (key : WriteUnlockKey) (duration expiresAt : Nat)
  /-- `remaining_ms`, also for `is_active`. -/
  | reading (key : WriteUnlockKey)
  | read (key : WriteUnlockKey) (expiresAt : Nat)
  /-- The window that was read has expired and is to be removed. -/
  | expired (key : WriteUnlockKey)
  deriving DecidableEq, Repr

inductive Answer where
  | refused (message : Str)
  | unlocked (millis : Nat)
  | remaining (i millis : Nat)
  deriving DecidableEq, Repr

/-- What `is_active` makes of the answer. -/
def isActive (millis : Nat) : Bool := 0 < millis

structure World where
  now : Nat := 0
  inner : WriteUnlockKey → Option Nat := fun _ => none
  calls : Nat → Call := fun _ => .idle

inductive Event where
  | tick (nanos : Nat)
  | unlock (i : Nat) (key : WriteUnlockKey) (secs : Nat)
  | insert (i : Nat)
  | lock (key : WriteUnlockKey)
  | remainingMs (i : Nat) (key : WriteUnlockKey)
  | get (i : Nat)
  | readClock (i : Nat)
  | remove (i : Nat)

namespace World

def setCall (w : World) (i : Nat) (call : Call) : World :=
  { w with calls := Function.update w.calls i call }

def setWindow (w : World) (key : WriteUnlockKey) (window : Option Nat) : World :=
  { w with inner := Function.update w.inner key window }

/-- One event, and the answer of the call that returns with it. -/
def step (w : World) (event : Event) : World × Option Answer :=
  match event with
  | .tick nanos => ({ w with now := w.now + nanos }, none)
  | .lock key => (w.setWindow key none, none)
  | .unlock i key secs =>
    match w.calls i, unlockDuration key secs with
    | .idle, .ok duration => (w.setCall i (.inserting key duration (w.now + duration)), none)
    | .idle, .error message => (w, some (.refused message))
    | _, _ => (w, none)
  | .insert i =>
    match w.calls i with
    | .inserting key duration expiresAt =>
      ((w.setWindow key (some expiresAt)).setCall i .idle, some (.unlocked (asMillis duration)))
    | _ => (w, none)
  | .remainingMs i key =>
    match w.calls i with
    | .idle => (w.setCall i (.reading key), none)
    | _ => (w, none)
  | .get i =>
    match w.calls i with
    | .reading key =>
      match w.inner key with
      | none => (w.setCall i .idle, some (.remaining i 0))
      | some expiresAt => (w.setCall i (.read key expiresAt), none)
    | _ => (w, none)
  | .readClock i =>
    match w.calls i with
    | .read key expiresAt =>
      if expiresAt ≤ w.now then (w.setCall i (.expired key), none)
      else (w.setCall i .idle, some (.remaining i (asMillis (expiresAt - w.now))))
    | _ => (w, none)
  | .remove i =>
    match w.calls i with
    | .expired key => ((w.setWindow key none).setCall i .idle, some (.remaining i 0))
    | _ => (w, none)

end World

end Dbx.Source.WriteUnlock
