import Dbx.Lib.Runs
import Dbx.Source.AgentSessions

/-!
# One piece of work at a time in each agent session

What is done in a session is done under its lock, and each call looks at the state once more
when it has the lock, except for the expiry of idle resources
(`MultiSessionJsonRpcServer.java:470-495`). Where an expiry does not find the session closed,
nothing is started in a session that has begun to disconnect.
-/
namespace Dbx.Guarantees.SessionTurns

open Dbx.Lib.Runs Dbx.Source.AgentSessions List

variable {custom : Bool} {w : World} {i n : Nat} {work : Work} {phase : Phase} {outcome : Outcome}

/-- No work in a session overlaps, and none is started after its disconnect, not even a second
disconnect. -/
structure Orderly (w : World) : Prop where
  alone : ∀ i j n work other, w.calls i = .on n (.working work) →
    w.calls j = .on n (.working other) → i = j
  last : w.started.Pairwise fun later first => first.1 = .disconnect → later.2 ≠ first.2

/-- An expiry that has the lock finds the session not closed. -/
def StillOpen (w : World) : Event → Prop
  | .call _ _ => True
  | .next i _ => ∀ n, w.calls i = .on n (.locked .expire) → (w.session n).state ≠ .closed

/-- The call that holds the lock disconnects. -/
def Disconnecting (w : World) (n : Nat) : Prop :=
  match (w.session n).lock with
  | some i => w.calls i = .on n (.working .disconnect)
  | none => False

structure Locked (w : World) : Prop where
  held : ∀ i n work, w.calls i = .on n (.locked work) ∨ w.calls i = .on n (.working work) →
    (w.session n).lock = some i
  ended : ∀ n, (.disconnect, n) ∈ w.started ↔ (w.session n).state = .closed ∨ Disconnecting w n

/-- The call has no lock. -/
def Outside (call : Call) : Prop :=
  ∀ n work, call ≠ .on n (.locked work) ∧ call ≠ .on n (.working work)

theorem outside_begin (server : Server) (request : Request) :
    Outside (server.begin custom request).2 := by
  cases request <;> simp only [Server.begin, Server.session, Outside] <;> grind

theorem outside_after : Outside (work.after n outcome) := by
  unfold Work.after Outside
  split <;> simp

/-- What the next step of a call does. -/
theorem next_cases {session session' : Session} {call : Call}
    (next : phase.next custom i n outcome session = (session', call)) :
    (Outside (.on n phase) ∧ session'.lock = session.lock ∧
      (session'.state = .closed ↔ session.state = .closed) ∧ Outside call) ∨
    (∃ work, phase = .waiting work ∧ session.lock = none ∧
      session' = { session with lock := some i } ∧ call = .on n (.locked work)) ∨
    (∃ work, phase = .locked work ∧ work.starts session.state ∧ session' = session ∧
      call = .on n (.working work)) ∨
    ∃ work, (phase = .locked work ∧ session'.state = session.state ∨ phase = .working work ∧
        session'.state = if work = .disconnect then .closed else session.state) ∧
      session'.lock = none ∧ Outside call := by
  cases phase <;> simp only [Phase.next] at next <;>
    grind [Outside, outside_after, Session.quarantine]

theorem Locked.onServer {result : Server × Call} (locked : Locked w)
    (before : Outside (w.calls i)) (after : Outside result.2) : Locked (w.onServer i result) := by
  obtain ⟨held, ended⟩ := locked
  constructor <;> simp only [World.onServer] <;>
    grind [Outside, Function.update_apply, Disconnecting]

theorem Locked.onSession (locked : Locked w) (on : w.calls i = .on n phase) :
    Locked (w.onSession i n phase (phase.next custom i n outcome (w.session n))) := by
  obtain ⟨held, ended⟩ := locked
  have here := held i n
  rcases next : phase.next custom i n outcome (w.session n) with ⟨session', call⟩
  rcases next_cases next with ⟨before, lock, state, later⟩ | ⟨work, rfl, lock, rfl, rfl⟩ |
    ⟨work, rfl, starts, rfl, rfl⟩ | ⟨work, before, lock, later⟩
  all_goals
    constructor
    · simp only [World.onSession]
      grind [Function.update_apply, Outside]
    · intro m
      have known := ended m
      simp only [World.onSession, Disconnecting]
      by_cases same : m = n <;> grind [Function.update_apply, Disconnecting, Outside]

/-- What an event can do. -/
theorem step_cases (w : World) (event : Event) : w.step custom event = w ∨
    (∃ i result, Outside (w.calls i) ∧ Outside result.2 ∧
      w.step custom event = w.onServer i result) ∨
    ∃ i outcome n phase, event = .next i outcome ∧ w.calls i = .on n phase ∧
      w.step custom event =
        w.onSession i n phase (phase.next custom i n outcome (w.session n)) := by
  cases event with
  | call i request =>
    by_cases idle : w.calls i = .idle
    · refine .inr (.inl ⟨i, w.server.begin custom request, ?_, outside_begin _ request, ?_⟩)
      · simp [idle, Outside]
      · simp [World.step, idle]
    · simp [World.step, idle]
  | next i outcome =>
    cases call : w.calls i with
    | idle => simp [World.step, call]
    | opening id =>
      refine .inr (.inl ⟨i, w.server.putIfAbsent id, ?_, ?_, ?_⟩)
      · simp [call, Outside]
      · unfold Server.putIfAbsent Outside
        grind
      · simp [World.step, call]
    | on n phase => exact .inr (.inr ⟨i, outcome, n, phase, rfl, call, by simp [World.step, call]⟩)

theorem Locked.step (locked : Locked w) (event : Event) : Locked (w.step custom event) := by
  rcases step_cases w event with same | ⟨i, result, before, after, next⟩ |
    ⟨i, outcome, n, phase, -, on, next⟩
  · rwa [same]
  · rw [next]
    exact locked.onServer before after
  · rw [next]
    exact locked.onSession on

theorem started_step (w : World) (event : Event) :
    (w.step custom event).started = w.started ∨ ∃ i outcome n work, event = .next i outcome ∧
      w.calls i = .on n (.locked work) ∧ work.starts (w.session n).state ∧
      (w.step custom event).started = (work, n) :: w.started := by
  rcases step_cases w event with same | ⟨i, result, -, -, next⟩ |
    ⟨i, outcome, n, phase, rfl, on, next⟩
  · rw [same]
    exact .inl rfl
  · rw [next]
    exact .inl rfl
  · rw [next]
    rcases moved : phase.next custom i n outcome (w.session n) with ⟨session', call⟩
    simp only [World.onSession]
    rcases next_cases moved with ⟨before, lock, state, later⟩ | ⟨work, rfl, lock, rfl, rfl⟩ |
      ⟨work, rfl, starts, rfl, rfl⟩ | ⟨work, before, lock, later⟩ <;> grind [Outside]

theorem Locked.not_ended (locked : Locked w) (on : w.calls i = .on n (.locked work))
    (stillOpen : (w.session n).state ≠ .closed) : (.disconnect, n) ∉ w.started := by
  rw [locked.ended]
  simp [stillOpen, Disconnecting, locked.held i n work (.inl on), on]

theorem orderly_iff (custom : Bool) (events : List Event) :
    (∀ w ∈ states (World.step custom) {} events, Orderly w) ↔
      StepsMeet (World.step custom) StillOpen {} events := by
  have step : ∀ (w : World) event, Locked w → Locked (w.step custom event) :=
    fun w event locked => locked.step event
  refine forall_states_iff step ?_ ?_ ?_ ?_ events
  · intro w event locked orderly stillOpen
    have held := (step w event locked).held
    constructor
    · intro i j n work other first second
      exact Option.some.inj ((held i n work (.inr first)).symm.trans (held j n other (.inr second)))
    rcases started_step w event with same | ⟨i, outcome, n, work, rfl, on, starts, next⟩
    · rw [same]
      exact orderly.last
    have notClosed : (w.session n).state ≠ .closed := by
      intro closed
      rw [closed] at starts
      cases work with
      | expire => exact stillOpen n on closed
      | _ => cases starts
    rw [next]
    refine pairwise_cons.mpr ⟨fun first member disconnect same => ?_, orderly.last⟩
    rw [← Prod.eta first, disconnect, ← same] at member
    exact locked.not_ended on notClosed member
  · intro w event locked _ orderly
    cases event with
    | call => trivial
    | next i outcome =>
      intro n on closed
      have last := orderly.last
      simp only [World.step, on, Phase.next, Work.starts, World.onSession] at last
      exact (pairwise_cons.mp last).1 _ ((locked.ended n).mpr (.inl closed)) rfl rfl
  · exact ⟨nofun, fun n => by simp [Disconnecting]⟩
  · exact ⟨nofun, .nil⟩

/-- The session is closed when its maintenance has found it active. -/
def closedMeanwhile : List Event :=
  .call 0 (.openSession ['a']) :: replicate 5 (.next 0 .returned) ++
    [.call 1 (.runMaintenance ['a']), .next 1 .returned, .call 2 (.closeSession ['a'])] ++
    replicate 6 (.next 2 .returned) ++ replicate 2 (.next 1 .returned)

theorem expiry_after_disconnect :
    ¬ Orderly (closedMeanwhile.foldl (World.step false) {}) := by
  intro orderly
  exact absurd orderly.last (by decide)

end Dbx.Guarantees.SessionTurns
