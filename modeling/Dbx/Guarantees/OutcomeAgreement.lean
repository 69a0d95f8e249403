import Mathlib.Data.List.Infix
import Dbx.Source.TwoPhaseCommit

/-!
# Two-phase-commit outcomes across crashes

A run is one `execute` call and any number of `recover` calls, each stopped where its
choices end. The durable outcome agrees with the participants in every state of a run
in which

* no `recover` finds the status `rolling_back` after a participant has committed, and
* no `recover` that finds the status `committing` after a participant has committed has
  all of its own commit attempts refused.

`execute` writes `rolling_back` before it records `mixed`, and the commit results of a
stopped call are not stored; that is why `recover` needs the two conditions. Nothing is
assumed about the participants' answers otherwise.
-/
namespace Dbx.Guarantees.OutcomeAgreement

open Dbx.Lib.Program Dbx.Source.TwoPhaseCommit List

variable {π : Type}

/-- Every answer to `commit` so far was a refusal. -/
def NoneCommitted (w : World π) : Prop := ∀ a ∈ w.answers, a.2 = false

def AllCommitted (participants : List π) (w : World π) : Prop :=
  ∀ p ∈ participants, (p, true) ∈ w.answers

/-- The durable outcome agrees with what the participants answered. -/
def OutcomeAgrees (participants : List π) (w : World π) : Prop :=
  ∀ log, w.log = some log →
    (log.status = "rolled_back" → NoneCommitted w) ∧
    (log.status = "committed" → AllCommitted participants w)

/-- The status that `recover` would read from the durable log. -/
def status (w : World π) : Option TransactionStatus :=
  w.log.map fun log => TransactionStatus.fromStr log.status

variable {st : TransactionStatus}

@[simp] theorem status_saved {w : World π} {log : TransactionLog} :
    status { w with log := some { log with status := st.asStr } } = some st := by
  simp [status]

/-- What a status says about the answers. -/
def Says (participants : List π) (w : World π) : Option TransactionStatus → Prop
  | none | some .preparing | some .prepared | some .rolledBack => NoneCommitted w
  | some .committed => AllCommitted participants w
  | some .committing | some .rollingBack | some .mixed | some .unknown => True

variable {w w' : World π} {participants : List π}

theorem NoneCommitted.of_answers (h : NoneCommitted w) (same : w'.answers = w.answers) :
    NoneCommitted w' := by
  unfold NoneCommitted
  rw [same]
  exact h

theorem Says.of_answers {st : Option TransactionStatus} (h : Says participants w st)
    (same : w'.answers = w.answers) : Says participants w' st := by
  unfold Says NoneCommitted AllCommitted at *
  rw [same]
  exact h

/-- The invariant at every point of a call: the status is true of the answers. -/
def Consistent (participants : List π) (w : World π) : Prop := Says participants w (status w)

theorem Consistent.agrees (h : Consistent participants w) : OutcomeAgrees participants w := by
  intro log hlog
  unfold Consistent status at h
  rw [hlog, Option.map_some] at h
  constructor
  · intro rolledBack
    rw [rolledBack] at h
    exact h
  · intro committed
    rw [committed] at h
    exact h

theorem consistent_saved {log : TransactionLog} (holds : Says participants w (some st)) :
    Consistent participants { w with log := some { log with status := st.asStr } } := by
  cases st <;> exact holds

/-! ## The phases -/

section Phases

variable (info : π → ParticipantInfo) {I : World π → Prop} {w : World π}

theorem always_stateMachine (request : StateRequest) (hI : I w) :
    Always handle I (fun _ w' => w' = w) (stateMachine request) w :=
  .call hI fun _ => .ret hI rfl

/-- `update_status` either leaves the world as it is or writes the status. -/
theorem always_updateStatus (transactionId : String) (status : TransactionStatus) (hI : I w)
    (saved : ∀ log, w.log = some log →
      I { w with log := some { log with status := status.asStr } }) :
    Always handle I
      (fun result w' => match result with
        | .ok log' => ∃ log, w.log = some log ∧ log' = { log with status := status.asStr } ∧
            w' = { w with log := some log' }
        | .error _ => w' = w)
      (updateStatus transactionId status) w := by
  refine .call hI fun choice => ?_
  cases choice with
  | err e => exact .ret hI rfl
  | ok =>
    cases hlog : w.log with
    | none =>
      simp only [handle, hlog]
      exact .ret hI rfl
    | some log =>
      simp only [handle, hlog]
      refine .call hI fun _ => ?_
      exact .ret (saved log hlog) ⟨log, rfl, rfl, rfl⟩

theorem always_collectVotes (participants : List π) (hI : I w) :
    Always handle I (fun _ w' => w' = w) (collectVotes info participants) w := by
  induction participants with
  | nil => exact .ret hI rfl
  | cons p rest ih =>
    refine .await hI fun choice => ?_
    cases choice with
    | err e => exact .ret hI rfl
    | ok =>
      refine Always.bind ih fun votes w' hI' same => ?_
      exact .ret hI' same

theorem always_rollbackPhase (participants : List π) (hI : I w) :
    Always handle I (fun _ w' => w' = w) (rollbackPhase info participants) w := by
  have collected : Always handle I (fun _ w' => w' = w)
      (collectRollbackErrors info participants) w := by
    induction participants with
    | nil => exact .ret hI rfl
    | cons p rest ih =>
      refine .await hI fun choice => ?_
      refine Always.bind ih fun errors w' hI' same => ?_
      cases choice with
      | err | ok => exact .ret hI' same
  exact collected.bind fun errors w' hI' same => .ret hI' same

/-- What one attempt leaves behind: `new` are the answers it got. -/
structure AttemptOutcome (last : Bool) (pending : List π)
    (results : List ParticipantCommitResult) (left : List π) (new : List (π × Bool)) : Prop where
  committed : (∀ a ∈ new, a.2 = false) ↔ results.any (·.committed) = false
  covered : ∀ p ∈ pending, (p, true) ∈ new ∨ p ∈ left ∨ results.all (·.committed) = false
  refused : (∀ a ∈ new, a.2 = false) → new.length = pending.length ∧ (last = false → left = pending)
  settled : last = true → left = []

namespace AttemptOutcome

variable {p : π} {rest left : List π} {results : List ParticipantCommitResult}
  {new : List (π × Bool)} {id e : String}

theorem accept {last : Bool} (h : AttemptOutcome last rest results left new) :
    AttemptOutcome last (p :: rest) (⟨id, true, none⟩ :: results) left ((p, true) :: new) where
  committed := by simp
  covered := by
    intro q member
    rcases mem_cons.mp member with rfl | member
    · exact .inl (by simp)
    rcases h.covered q member with done | pending | refused
    · exact .inl (mem_cons_of_mem _ done)
    · exact .inr (.inl pending)
    · exact .inr (.inr (by simpa using refused))
  refused := fun all => absurd (all (p, true) (by simp)) (by simp)
  settled := h.settled

theorem refuse (h : AttemptOutcome false rest results left new) :
    AttemptOutcome false (p :: rest) results (p :: left) ((p, false) :: new) where
  committed := by simpa using h.committed
  covered := by
    intro q member
    rcases mem_cons.mp member with rfl | member
    · exact .inr (.inl (by simp))
    rcases h.covered q member with done | pending | refused
    · exact .inl (mem_cons_of_mem _ done)
    · exact .inr (.inl (mem_cons_of_mem _ pending))
    · exact .inr (.inr refused)
  refused := by
    intro all
    obtain ⟨length, same⟩ := h.refused (forall_mem_cons.mp all).2
    exact ⟨by simp [length], fun h => by rw [same h]⟩
  settled := by simp

theorem refuseLast (h : AttemptOutcome true rest results left new) :
    AttemptOutcome true (p :: rest) (⟨id, false, some e⟩ :: results) left ((p, false) :: new) where
  committed := by simpa using h.committed
  covered := fun _ _ => .inr (.inr (by simp))
  refused := by
    intro all
    obtain ⟨length, -⟩ := h.refused (forall_mem_cons.mp all).2
    exact ⟨by simp [length], by simp⟩
  settled := h.settled

end AttemptOutcome

theorem always_commitAttempt (last : Bool) (pending : List π)
    (hI : ∀ new, I { w with answers := w.answers ++ new }) :
    Always handle I
      (fun result w' => ∃ new, w' = { w with answers := w.answers ++ new } ∧
        AttemptOutcome last pending result.1 result.2 new)
      (commitAttempt info last pending) w := by
  induction pending generalizing w with
  | nil =>
    refine .ret (by simpa using hI []) ⟨[], by simp, ?_, ?_, ?_, fun _ => rfl⟩
    · simp
    · simp
    · simp
  | cons p rest ih =>
    refine .await (by simpa using hI []) fun choice => ?_
    have hI' (new : List (π × Bool)) : I { w with
        answers := w.answers ++ [(p, choice == .ok)] ++ new } := by
      rw [append_assoc]
      exact hI _
    refine Always.bind (ih (w := (handle w (.commit p) choice).2) hI')
      fun result w' here outcome => ?_
    obtain ⟨new, rfl, outcome⟩ := outcome
    cases choice with
    | ok => exact .ret here ⟨(p, true) :: new, by simp [handle], outcome.accept⟩
    | err e =>
      cases last with
      | true => exact .ret here ⟨(p, false) :: new, by simp [handle], outcome.refuseLast⟩
      | false => exact .ret here ⟨(p, false) :: new, by simp [handle], outcome.refuse⟩

/-- What a whole commit phase leaves behind. -/
structure PhaseOutcome (attempts : Nat) (pending : List π)
    (results : List ParticipantCommitResult) (new : List (π × Bool)) : Prop where
  committed : (∀ a ∈ new, a.2 = false) ↔ results.any (·.committed) = false
  covered : ∀ p ∈ pending, (p, true) ∈ new ∨ results.all (·.committed) = false
  refused : (∀ a ∈ new, a.2 = false) → new.length = attempts * pending.length

namespace PhaseOutcome

variable {attempts : Nat} {pending left : List π} {results more : List ParticipantCommitResult}
  {new later : List (π × Bool)}

/-- The last attempt settles every participant. -/
theorem of_last (h : AttemptOutcome true pending results left new) :
    PhaseOutcome 1 pending results new where
  committed := h.committed
  covered := by
    intro p member
    have cases := h.covered p member
    rw [h.settled rfl] at cases
    simpa using cases
  refused := by
    intro all
    rw [(h.refused all).1, Nat.one_mul]

/-- An attempt followed by attempts over those it left pending. -/
theorem retry (h : AttemptOutcome false pending results left new)
    (t : PhaseOutcome attempts left more later) :
    PhaseOutcome (attempts + 1) pending (results ++ more) (new ++ later) where
  committed := by
    rw [any_append, Bool.or_eq_false_iff, ← h.committed, ← t.committed]
    exact forall_mem_append
  covered := by
    intro p member
    rcases h.covered p member with done | waiting | refused
    · exact .inl (mem_append_left _ done)
    · rcases t.covered p waiting with done | refused
      · exact .inl (mem_append_right _ done)
      · exact .inr (by rw [all_append, refused, Bool.and_false])
    · exact .inr (by rw [all_append, refused, Bool.false_and])
  refused := by
    intro all
    obtain ⟨length, same⟩ := h.refused fun a member => all a (mem_append_left _ member)
    have rest := t.refused fun a member => all a (mem_append_right _ member)
    rw [same rfl] at rest
    rw [length_append, Nat.succ_mul]
    omega

end PhaseOutcome

theorem always_commitPhase (retries : Nat) (pending : List π)
    (hI : ∀ new, I { w with answers := w.answers ++ new }) :
    Always handle I
      (fun results w' => ∃ new, w' = { w with answers := w.answers ++ new } ∧
        PhaseOutcome (retries + 1) pending results new)
      (commitPhase info retries pending) w := by
  induction retries generalizing w pending with
  | zero =>
    refine Always.bind (always_commitAttempt info true pending hI) fun result w' here outcome => ?_
    obtain ⟨new, rfl, outcome⟩ := outcome
    exact .ret here ⟨new, rfl, .of_last outcome⟩
  | succ retries ih =>
    refine Always.bind (always_commitAttempt info false pending hI) fun result w' here outcome => ?_
    obtain ⟨new, rfl, outcome⟩ := outcome
    obtain ⟨results, left⟩ := result
    cases left with
    | nil =>
      -- nobody is left pending: as if the remaining attempts had nothing to do
      have idle : PhaseOutcome (retries + 1) ([] : List π) [] [] := ⟨by simp, by simp, by simp⟩
      refine .ret here ⟨new, rfl, ?_⟩
      simpa using idle.retry outcome
    | cons p rest =>
      have hI' (later : List (π × Bool)) : I { w with answers := w.answers ++ new ++ later } := by
        rw [append_assoc]
        exact hI _
      refine Always.bind (ih (w := { w with answers := w.answers ++ new }) (p :: rest) hI')
        fun more w' here' outcome' => ?_
      obtain ⟨later, rfl, outcome'⟩ := outcome'
      exact .ret here' ⟨new ++ later, by simp, .retry outcome outcome'⟩

end Phases

/-! ## The two calls -/

variable {w₁ w₂ : World π}

section Calls

variable (info : π → ParticipantInfo) (transactionId : String) {participants : List π}
  {w : World π}

/-- Writing a status that is true of the answers keeps the invariant. -/
theorem always_record (st : TransactionStatus) (here : Consistent participants w)
    (holds : Says participants w (some st)) :
    Always handle (Consistent participants)
      (fun result w' => w'.answers = w.answers ∧ ∀ log, result = .ok log → status w' = some st)
      (updateStatus transactionId st) w := by
  refine (always_updateStatus transactionId st here fun log _ => consistent_saved holds).mono
    (fun _ h => h) fun result w' post => ?_
  cases result with
  | error e =>
    subst post
    exact ⟨rfl, by simp⟩
  | ok log' =>
    obtain ⟨log, -, rfl, rfl⟩ := post
    exact ⟨rfl, fun _ _ => status_saved⟩

theorem always_preparePhase (here : Consistent participants w) (untouched : NoneCommitted w) :
    Always handle (Consistent participants) (fun _ w' => w'.answers = w.answers)
      (preparePhase info transactionId participants) w := by
  refine (always_record transactionId .preparing here untouched).andOk ?_ fun e w' _ post => post.1
  intro log w₁ here₁ post₁
  refine Always.bind (always_collectVotes info participants here₁) fun votes w₂ here₂ same => ?_
  subst same
  by_cases agreed : votes.all (·.vote)
  · simp only [agreed]
    have untouched₂ : NoneCommitted w₂ := untouched.of_answers post₁.1
    refine (always_record transactionId .prepared here₂ untouched₂).andOk ?_ fun e w' _ post => by
      rw [post.1, post₁.1]
    exact fun log w₃ here₃ post₃ => .ret here₃ (by rw [post₃.1, post₁.1])
  · simp only [agreed]
    exact .ret here₂ post₁.1

/-- While the status is `committing` any answers are consistent. -/
theorem consistent_committing (committing : status w = some .committing)
    (new : List (π × Bool)) : Consistent participants { w with answers := w.answers ++ new } := by
  have same : status { w with answers := w.answers ++ new } = some .committing := committing
  unfold Consistent
  rw [same]
  trivial

variable {attempts : Nat} {results : List ParticipantCommitResult} {new : List (π × Bool)}

theorem PhaseOutcome.holds_committed (h : PhaseOutcome attempts participants results new)
    (all : allCommitted participants results = true) :
    Says participants { w with answers := w.answers ++ new } (some .committed) := by
  intro p member
  unfold allCommitted at all
  rcases h.covered p member with done | refused
  · exact mem_append_right _ done
  · rw [refused] at all
    have : participants = [] := by simpa using all
    simp [this] at member

theorem PhaseOutcome.holds_finalStatus (h : PhaseOutcome attempts participants results new)
    (untouched : (∀ a ∈ new, a.2 = false) → NoneCommitted w) :
    Says participants { w with answers := w.answers ++ new } (some (finalStatus results)) := by
  unfold finalStatus
  by_cases committed : results.any (·.committed)
  · simp only [committed]
    trivial
  · have refused := h.committed.mpr (by simpa using committed)
    simp only [committed]
    exact forall_mem_append.mpr ⟨untouched refused, refused⟩

/-- The end of `execute` where the transaction does not commit. -/
theorem always_abort (result : TransactionLog → Except String TransactionLog)
    (here : Consistent participants w) (holds : Says participants w (some st)) :
    Always handle (Consistent participants) (fun _ _ => True)
      ((updateStatus transactionId .rollingBack).andOk fun _ =>
        (rollbackPhase info participants).bind fun _ =>
        (updateStatus transactionId st).andOk fun log =>
        (stateMachine .failed).bind fun _ => .ret (result log)) w := by
  refine (always_record transactionId .rollingBack here trivial).andOk ?_ fun _ _ _ _ => trivial
  intro log w₁ here₁ post₁
  refine Always.bind (always_rollbackPhase info participants here₁) fun _ w₂ here₂ same => ?_
  subst same
  refine (always_record transactionId st here₂ (holds.of_answers post₁.1)).andOk ?_
    fun _ _ _ _ => trivial
  intro log w₃ here₃ _
  exact (always_stateMachine .failed here₃).bind fun _ w' here' _ => .ret here' trivial

theorem always_execute : Always handle (Consistent participants) (fun _ _ => True)
      (execute info transactionId participants) {} := by
  have fresh : NoneCommitted ({} : World π) := by simp [NoneCommitted]
  refine .call fresh fun _ => ?_
  have here : Consistent participants
      { log := some ⟨transactionId, "preparing", participants.map info⟩ } := fresh
  refine (always_stateMachine .create here).andOk ?_ fun _ _ _ _ => trivial
  intro _ w₁ here₁ same
  subst same
  refine (always_preparePhase info transactionId here₁ fresh).andOk ?_ fun _ _ _ _ => trivial
  intro votes w₂ here₂ post₂
  have untouched : NoneCommitted w₂ := fresh.of_answers post₂
  by_cases agreed : votes.all (·.vote)
  case neg =>
    simp only [agreed]
    exact always_abort info transactionId _ here₂ untouched
  simp only [agreed]
  refine (always_record transactionId .committing here₂ trivial).andOk ?_ fun _ _ _ _ => trivial
  intro log w₃ here₃ post₃
  refine Always.bind (always_commitPhase info 2 participants
    (consistent_committing (post₃.2 log rfl))) fun results w₄ here₄ outcome => ?_
  obtain ⟨new, rfl, outcome⟩ := outcome
  by_cases all : allCommitted participants results
  · simp only [all]
    refine (always_record transactionId .committed here₄ (outcome.holds_committed all)).andOk ?_
      fun _ _ _ _ => trivial
    intro log w₅ here₅ _
    exact (always_stateMachine .completed here₅).bind fun _ w' here' _ => .ret here' trivial
  · simp only [all]
    refine always_abort info transactionId _ here₄ (outcome.holds_finalStatus fun _ => ?_)
    exact untouched.of_answers post₃.1

/-- All commit attempts of a call from `w` were refused: three for each participant. -/
def AttemptsRefused (participants : List π) (w w' : World π) : Prop :=
  w.answers.length + 3 * participants.length ≤ w'.answers.length ∧
    ∀ a ∈ (w'.answers.drop w.answers.length).take (3 * participants.length), a.2 = false

/-- What a `recover` call from `w` that has come to `w'` needs for a true outcome. -/
def RecoverCondition (participants : List π) (w w' : World π) : Prop :=
  NoneCommitted w ∨
    status w ≠ some .rollingBack ∧
    (status w = some .committing → ¬ AttemptsRefused participants w w')

theorem PhaseOutcome.attemptsRefused (h : PhaseOutcome 3 participants results new)
    (refused : ∀ a ∈ new, a.2 = false) :
    AttemptsRefused participants w { w with answers := w.answers ++ new } := by
  have length := h.refused refused
  constructor
  · simp only [length_append]
    omega
  · intro a member
    rw [drop_left] at member
    exact refused a (mem_of_mem_take member)

/-- The invariant of a `recover` call from `w`: consistent, or outside the condition. -/
def RecoverInvariant (participants : List π) (w w' : World π) : Prop :=
  RecoverCondition participants w w' → Consistent participants w'

/-- `recover` on a status from which it rolls back. -/
theorem always_recover_rollBack (here : Consistent participants w)
    (untouched : status w ≠ some .rollingBack → NoneCommitted w) :
    Always handle (RecoverInvariant participants w) (fun _ _ => True)
      ((rollbackPhase info participants).andOk fun _ => updateStatus transactionId .rolledBack) w := by
  refine (always_rollbackPhase info participants fun _ => here).andOk ?_ fun _ _ _ _ => trivial
  intro _ w' here' same
  subst same
  refine (always_updateStatus transactionId .rolledBack here' ?_).mono
    (fun _ h => h) fun _ _ _ => trivial
  intro log _ condition
  refine consistent_saved ?_
  rcases condition with untouched' | ⟨notRollingBack, -⟩
  · exact untouched'
  · exact untouched notRollingBack

/-- `recover` on the status `committing`. -/
theorem always_recover_commit (committing : status w = some .committing) :
    Always handle (RecoverInvariant participants w) (fun _ _ => True)
      ((commitPhase info 2 participants).bind fun results =>
        if allCommitted participants results then updateStatus transactionId .committed
        else
          (rollbackPhase info participants).andOk fun _ =>
          (updateStatus transactionId (finalStatus results)).andOk fun _ =>
          .ret (.error ("Recovery failed during commit: " ++ describeFailures results))) w := by
  refine Always.bind (always_commitPhase info 2 participants
    fun new _ => consistent_committing committing new) fun results w' _ outcome => ?_
  obtain ⟨new, rfl, outcome⟩ := outcome
  have here : Consistent participants { w with answers := w.answers ++ new } :=
    consistent_committing committing new
  by_cases all : allCommitted participants results
  · simp only [all]
    exact (always_record transactionId .committed here (outcome.holds_committed all)).mono
      (fun _ h _ => h) fun _ _ _ => trivial
  simp only [all]
  refine (always_rollbackPhase info participants fun _ => here).andOk ?_ fun _ _ _ _ => trivial
  intro _ w' here' same
  subst same
  refine (always_updateStatus transactionId (finalStatus results) here' ?_).andOk
    (fun _ _ h _ => .ret h trivial) fun _ _ _ _ => trivial
  intro log _ condition
  refine consistent_saved (outcome.holds_finalStatus fun refused => ?_)
  rcases condition with untouched | ⟨-, attempts⟩
  · exact untouched
  · exact absurd (outcome.attemptsRefused refused) (attempts committing)

theorem always_recover (here : Consistent participants w) :
    Always handle (RecoverInvariant participants w) (fun _ _ => True)
      (recover info transactionId participants) w := by
  have stay : RecoverInvariant participants w w := fun _ => here
  refine .call stay fun choice => ?_
  cases choice with
  | err e => exact .ret stay trivial
  | ok =>
  cases hlog : w.log with
  | none =>
    simp only [handle, hlog]
    exact .ret stay trivial
  | some log =>
  simp only [handle, hlog, Prog.bind]
  have found : status w = some (TransactionStatus.fromStr log.status) := by simp [status, hlog]
  have holds : Says participants w (some (TransactionStatus.fromStr log.status)) := found ▸ here
  cases stored : TransactionStatus.fromStr log.status with
  | preparing | prepared =>
    rw [stored] at holds
    exact always_recover_rollBack info transactionId here fun _ => holds
  | committing => exact always_recover_commit info transactionId (stored ▸ found)
  | rollingBack =>
    exact always_recover_rollBack info transactionId here fun h => absurd (stored ▸ found) h
  | committed | rolledBack | mixed | unknown => exact .ret stay trivial

end Calls

/-! ## Runs -/

section Runs

variable (info : π → ParticipantInfo) (transactionId : String) (participants : List π)

/-- The states of one call, at every point where it can stop. -/
def callStates (call : List Reply → World π) (choices : List Reply) : List (World π) :=
  choices.inits.map call

def recoveryStates (w : World π) : List (List Reply) → List (World π)
  | [] => []
  | choices :: later =>
    callStates (afterRecover info transactionId participants w) choices ++
      recoveryStates (afterRecover info transactionId participants w choices) later

/-- The states of a run: one `execute` call, then a `recover` call for each of `recoveries`. -/
def runStates (choices : List Reply) (recoveries : List (List Reply)) : List (World π) :=
  callStates (afterExecute info transactionId participants) choices ++
    recoveryStates info transactionId participants
      (afterExecute info transactionId participants choices) recoveries

/-- Every `recover` call of a run from `w` meets its condition. -/
def RecoveriesMeet (w : World π) : List (List Reply) → Prop
  | [] => True
  | choices :: later =>
    RecoverCondition participants w (afterRecover info transactionId participants w choices) ∧
      RecoveriesMeet (afterRecover info transactionId participants w choices) later

theorem handle_answers (w : World π) (op : Op π) (choice : Reply) :
    w.answers <+: (handle w op choice).2.answers := by
  cases op with
  | commit p => exact prefix_append _ _
  | loadLog => cases choice <;> exact prefix_rfl
  | _ => exact prefix_rfl

theorem exec_answers {α : Type} (p : Action π α) (w : World π) (choices : List Reply) :
    w.answers <+: (exec handle p w choices).2.answers := by
  induction p generalizing w choices with
  | ret a => exact prefix_rfl
  | call op k ih =>
    cases choices with
    | nil => exact prefix_rfl
    | cons c cs => exact (handle_answers w op c).trans (ih _ _ cs)

variable {participants}

theorem AttemptsRefused.mono (h : AttemptsRefused participants w w₁)
    (more : w₁.answers <+: w₂.answers) : AttemptsRefused participants w w₂ := by
  obtain ⟨new, more⟩ := more
  obtain ⟨length, refused⟩ := h
  unfold AttemptsRefused
  rw [← more]
  constructor
  · rw [length_append]
    omega
  · rw [drop_append_of_le_length (by omega), take_append_of_le_length]
    · exact refused
    · rw [length_drop]
      omega

/-- A call that meets its condition meets it at every point where it can stop. -/
theorem RecoverCondition.earlier (h : RecoverCondition participants w w₂)
    (more : w₁.answers <+: w₂.answers) : RecoverCondition participants w w₁ := by
  rcases h with untouched | ⟨notRollingBack, attempts⟩
  · exact .inl untouched
  · exact .inr ⟨notRollingBack, fun committing refused =>
      attempts committing (refused.mono more)⟩

theorem consistent_recover {choices : List Reply} (here : Consistent participants w)
    (condition : RecoverCondition participants w
      (afterRecover info transactionId participants w choices))
    (member : w' ∈ callStates (afterRecover info transactionId participants w) choices) :
    Consistent participants w' := by
  obtain ⟨stopped, cut, rfl⟩ := mem_map.mp member
  obtain ⟨rest, rfl⟩ := (mem_inits _ _).mp cut
  refine (always_recover info transactionId here).exec_inv stopped (condition.earlier ?_)
  unfold afterRecover
  rw [exec_append]
  exact exec_answers _ _ rest

theorem consistent_recoveries {recoveries : List (List Reply)} (here : Consistent participants w)
    (meet : RecoveriesMeet info transactionId participants w recoveries)
    (member : w' ∈ recoveryStates info transactionId participants w recoveries) :
    Consistent participants w' := by
  induction recoveries generalizing w with
  | nil => simp [recoveryStates] at member
  | cons choices later ih =>
    rcases mem_append.mp member with member | member
    · exact consistent_recover info transactionId here meet.1 member
    · refine ih (consistent_recover info transactionId here meet.1 ?_) meet.2 member
      exact mem_map.mpr ⟨choices, (mem_inits _ _).mpr prefix_rfl, rfl⟩

variable (participants)

/-- In every run whose `recover` calls meet the condition, the durable outcome agrees with
the participants in every state the run passes through. -/
theorem outcome_agrees (choices : List Reply) (recoveries : List (List Reply))
    (meet : RecoveriesMeet info transactionId participants
      (afterExecute info transactionId participants choices) recoveries) :
    ∀ w ∈ runStates info transactionId participants choices recoveries,
      OutcomeAgrees participants w := by
  have executed (stopped : List Reply) :
      Consistent participants (afterExecute info transactionId participants stopped) :=
    (always_execute info transactionId).exec_inv stopped
  intro w member
  rcases mem_append.mp member with member | member
  · obtain ⟨stopped, -, rfl⟩ := mem_map.mp member
    exact (executed stopped).agrees
  · exact (consistent_recoveries info transactionId (executed choices) meet member).agrees

/-- Participant `0` commits, `execute` stops, and `recover` commits everybody. -/
theorem outcome_agrees_recovered : let info : Nat → ParticipantInfo := fun n => ⟨toString n, "", ""⟩
    let stopped := List.replicate 11 Reply.ok
    let recovery := List.replicate 5 Reply.ok
    RecoveriesMeet info "t" [0, 1] (afterExecute info "t" [0, 1] stopped) [recovery] ∧
      ∀ w ∈ runStates info "t" [0, 1] stopped [recovery], OutcomeAgrees [0, 1] w := by
  have meet : RecoveriesMeet (fun n => ⟨toString n, "", ""⟩) "t" [0, 1]
      (afterExecute (fun n => ⟨toString n, "", ""⟩) "t" [0, 1] (replicate 11 Reply.ok))
      [replicate 5 Reply.ok] := by
    refine ⟨.inr ⟨by decide, fun _ refused => ?_⟩, trivial⟩
    exact absurd (refused.2 (0, true) (by decide)) (by decide)
  exact ⟨meet, outcome_agrees _ _ _ _ _ meet⟩

/-- Participant `0` commits and `1` refuses three times; `execute` writes `rolling_back` and
stops before it records `mixed`. `recover` then records `rolled_back`. -/
theorem outcome_disagrees_after_stop :
    let info : Nat → ParticipantInfo := fun n => ⟨toString n, "", ""⟩
    let refusals := List.replicate 3 (Reply.err "refused")
    let stopped := List.replicate 11 Reply.ok ++ refusals ++ List.replicate 2 Reply.ok
    ∃ w ∈ runStates info "t" [0, 1] stopped [List.replicate 5 Reply.ok],
      ¬ OutcomeAgrees [0, 1] w := by
  intro info refusals stopped
  refine ⟨afterRecover info "t" [0, 1] (afterExecute info "t" [0, 1] stopped)
    (replicate 5 .ok), ?_, ?_⟩
  · exact mem_append_right _ (mem_append_left _
      (mem_map.mpr ⟨_, (mem_inits _ _).mpr prefix_rfl, rfl⟩))
  · intro agrees
    have untouched := (agrees _ rfl).1 (by decide)
    exact absurd (untouched (0, true) (by decide)) (by decide)

end Runs

end Dbx.Guarantees.OutcomeAgreement
