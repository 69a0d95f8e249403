import Dbx.Lib.Text
import Mathlib.Logic.Function.Basic

/-!
# Sessions of the agent server

`MultiSessionJsonRpcServer.java`, lines 172–273 and 384–509. The calls are numbered; each
access to the session map, to the state of a session, its lock or its flag is one event, and
so are the start and the end of what a call does under the lock. A `connect` of the older
protocol is a close and an open. What the agents do and `server.quarantine` are left out.
-/
namespace Dbx.Source.AgentSessions

open Dbx.Lib.Text

inductive State where
  | active
  | quarantined
  | closed
  deriving DecidableEq

structure Session where
  state : State := .active
  /-- The call that holds the lock. -/
  lock : Option Nat := none
  cleanupScheduled : Bool := false

/-- `state.compareAndSet(ACTIVE, QUARANTINED)` -/
def Session.quarantine (session : Session) : Session :=
  if session.state = .active then { session with state := .quarantined } else session

/-- What is done under the lock. -/
inductive Work where
  /-- For `openSession` under an id, or for `testSession`. -/
  | connect (id : Option Str)
  | request
  | expire
  | disconnect
  deriving DecidableEq

inductive Outcome where
  | returned
  | exception
  | error
  deriving DecidableEq

/-- Where a call on a session is. -/
inductive Phase where
  | entering (work : Work)
  | waiting (work : Work)
  | locked (work : Work)
  | working (work : Work)
  /-- `openSession` after a failure. -/
  | removing (id : Str)
  | quarantining
  | scheduling
  deriving DecidableEq

inductive Call where
  | idle
  /-- `openSession` has found the limit not reached. -/
  | opening (id : Str)
  | on (n : Nat) (phase : Phase)
  deriving DecidableEq

/-- How a call on session `n` goes on without the lock. A failed `requireActive` is an
exception. -/
def Work.after (n : Nat) : Work → Outcome → Call
  | .connect (some id), .exception => .on n (.removing id)
  | .connect none, _ => .on n (.entering .disconnect)
  | _, _ => .idle

/-- The check that is made under the lock. -/
def Work.starts (state : State) : Work → Bool
  | .connect _ | .request => state = .active
  | .expire => true
  | .disconnect => state ≠ .closed

/-- The next step of call `i` on session `n`. For `expire` the lock is only tried. The cleanup
task goes on under the number of the call that scheduled it. -/
def Phase.next (custom : Bool) (i n : Nat) (outcome : Outcome) (session : Session) :
    Phase → Session × Call
  | .entering work =>
    if work = .disconnect then (session.quarantine, .on n (.waiting work))
    else if session.state = .active ∧ ¬ (work = .expire ∧ custom) then
      (session, .on n (.waiting work))
    else (session, work.after n .exception)
  | .waiting work =>
    if session.lock = none then ({ session with lock := some i }, .on n (.locked work))
    else (session, if work = .expire then .idle else .on n (.waiting work))
  | .locked work =>
    if work.starts session.state then (session, .on n (.working work))
    else ({ session with lock := none }, work.after n .exception)
  | .working work =>
    let state := if work = .disconnect then .closed else session.state
    ({ session with state, lock := none }, work.after n outcome)
  | .removing _ => (session, .on n .quarantining)
  | .quarantining => (session.quarantine, .on n .scheduling)
  | .scheduling =>
    if session.cleanupScheduled then (session, .idle)
    else ({ session with cleanupScheduled := true },
      if outcome = .returned then .on n (.entering .disconnect) else .idle)

inductive Request where
  | openSession (id : Str)
  | testSession
  | closeSession (id : Str)
  | handle (id : Str)
  | cancel (id : Str)
  /-- The iteration over the sessions has come to this one. -/
  | runMaintenance (id : Str)

/-- The session map, and how many sessions were made. -/
structure Server where
  sessions : List (Str × Nat) := []
  created : Nat := 0

def maxSessions : Nat := 256

namespace Server

variable (server : Server)

def session (id : Str) (phase : Phase) : Call :=
  match server.sessions.lookup id with
  | some n => .on n phase
  | none => .idle

/-- The first access to the map, on a server with handlers of its own (`custom`) or with JDBC
agents. -/
def begin (custom : Bool) : Request → Server × Call
  | .openSession id =>
    (server, if maxSessions ≤ server.sessions.length ∧ server.sessions.lookup id = none then .idle
      else .opening id)
  | .testSession =>
    if custom then
      ({ server with created := server.created + 1 },
        .on server.created (.entering (.connect none)))
    else (server, .idle)
  | .closeSession id =>
    ({ server with sessions := server.sessions.filter (·.1 ≠ id) },
      server.session id .quarantining)
  | .handle id => (server, server.session id (.entering .request))
  | .cancel _ => (server, .idle)
  | .runMaintenance id => (server, server.session id (.entering .expire))

/-- `openSession` with the session it has made. -/
def putIfAbsent (id : Str) : Server × Call :=
  let n := server.created
  if (server.sessions.lookup id).isSome then ({ server with created := n + 1 }, .idle)
  else (⟨(id, n) :: server.sessions, n + 1⟩, .on n (.entering (.connect (some id))))

end Server

structure World where
  server : Server := {}
  session : Nat → Session := fun _ => {}
  calls : Nat → Call := fun _ => .idle
  /-- The work that was started, the last first. -/
  started : List (Work × Nat) := []

inductive Event where
  | call (i : Nat) (request : Request)
  /-- The call goes on; what it started has this outcome. -/
  | next (i : Nat) (outcome : Outcome)

namespace World

variable (custom : Bool) (w : World)

def onServer (i : Nat) (result : Server × Call) : World :=
  { w with server := result.1, calls := Function.update w.calls i result.2 }

def onSession (i n : Nat) (phase : Phase) (result : Session × Call) : World where
  server := match phase with
    | .removing id => { w.server with sessions := w.server.sessions.erase (id, n) }
    | _ => w.server
  session := Function.update w.session n result.1
  calls := Function.update w.calls i result.2
  started := match result.2 with
    | .on _ (.working work) => (work, n) :: w.started
    | _ => w.started

def step : Event → World
  | .call i request =>
    if w.calls i = .idle then w.onServer i (w.server.begin custom request) else w
  | .next i outcome =>
    match w.calls i with
    | .idle => w
    | .opening id => w.onServer i (w.server.putIfAbsent id)
    | .on n phase => w.onSession i n phase (phase.next custom i n outcome (w.session n))

end World

end Dbx.Source.AgentSessions
