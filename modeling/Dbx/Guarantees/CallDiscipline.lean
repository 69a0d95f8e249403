import Mathlib.Data.List.FinRange
import Mathlib.Data.List.Induction
import Dbx.Source.TwoPhaseCommit

/-!
# Who is asked what in a two-phase commit

The calls of `TwoPhaseCommit::execute` to its participants, as a trace that also holds
the saves of the log (`CallLog`). Loads and state-machine calls may fail, the participants
answer what they like, and the call may stop after any of its operations.

`Disciplined` says which traces there are: the participants are prepared in order up to
the first refusal; commits follow only when all have been prepared and the log has been
saved as committing; nobody is asked again after an `Ok`, nor more than three times
(`call_discipline`). A participant is an entry of the list: two entries are two
participants, whatever stands behind them.
-/
namespace Dbx.Guarantees.CallDiscipline

open Dbx.Lib.Program Dbx.Source.TwoPhaseCommit List Function

inductive Event (π : Type) where
  | saved (status : String)
  | prepared (p : π) (answer : Reply)
  | committed (p : π) (answer : Reply)
  | rolledBack (p : π) (answer : Reply)

/-- The durable log and the trace of the calls. -/
structure CallLog (π : Type) where
  log : Option TransactionLog := none
  trace : List (Event π) := []

def recordCall {π : Type} : Handler (Op π) Op.Ans (CallLog π) Reply := fun w op choice =>
  match op with
  | .loadLog => match choice with
    | .ok => (.ok w.log, w)
    | .err e => (.error e, w)
  | .saveLog log => (.ok (), { log := some log, trace := w.trace ++ [.saved log.status] })
  | .stateMachine _ => (choice.result, w)
  | .prepare p => (choice.result, { w with trace := w.trace ++ [.prepared p choice] })
  | .commit p => (choice.result, { w with trace := w.trace ++ [.committed p choice] })
  | .rollback p => (choice.result, { w with trace := w.trace ++ [.rolledBack p choice] })

variable {π : Type}

def prepares (trace : List (Event π)) : List (π × Reply) :=
  trace.filterMap fun
    | .prepared p answer => some (p, answer)
    | _ => none

def commits (trace : List (Event π)) : List (π × Reply) :=
  trace.filterMap fun
    | .committed p answer => some (p, answer)
    | _ => none

def savedStatus (trace : List (Event π)) : Option String :=
  (trace.filterMap fun
    | .saved status => some status
    | _ => none).getLast?

/-- Everybody has been prepared, and the log says that the commits begin. -/
def ReadyToCommit (participants : List π) (trace : List (Event π)) : Prop :=
  prepares trace = participants.map (·, .ok) ∧
    savedStatus trace = some TransactionStatus.committing.asStr

/-- The answers of a participant to `commit`, in order. -/
def answersOf [DecidableEq π] (p : π) (answers : List (π × Reply)) : List Reply :=
  answers.filterMap fun answer => if answer.1 = p then some answer.2 else none

structure Disciplined [DecidableEq π] (participants : List π) (trace : List (Event π)) : Prop where
  /-- Prepared in order, each at most once. -/
  inOrder : (prepares trace).map (·.1) <+: participants
  /-- Nobody is prepared after a refusal. -/
  untilRefusal : ∀ answer ∈ (prepares trace).dropLast, answer.2 = .ok
  /-- Commits come after all the preparations and after the save. -/
  guarded : ∀ before p answer after, trace = before ++ .committed p answer :: after →
    ReadyToCommit participants before
  /-- Nobody is asked again after an `Ok`. -/
  settled : ∀ p, ∀ answer ∈ (answersOf p (commits trace)).dropLast, answer ≠ .ok
  atMostThree : ∀ p, (answersOf p (commits trace)).length ≤ 3

@[simp] theorem prepares_append (first second : List (Event π)) :
    prepares (first ++ second) = prepares first ++ prepares second :=
  filterMap_append

@[simp] theorem commits_append (first second : List (Event π)) :
    commits (first ++ second) = commits first ++ commits second :=
  filterMap_append

@[simp] theorem answersOf_append [DecidableEq π] (p : π) (first second : List (π × Reply)) :
    answersOf p (first ++ second) = answersOf p first ++ answersOf p second :=
  filterMap_append

/-! ## The answers of a commit phase -/

variable {pending : List π}

section Answers

/-- Who refused. -/
def failed (answers : List (π × Reply)) : List π :=
  (answers.filter fun answer => answer.2 != .ok).map (·.1)

/-- The answers of a commit phase that may be stopped: each attempt asks the participants
that are left in order, and the next one those that refused. -/
inductive CommitTrace : Nat → List π → List (π × Reply) → Prop
  | stopped {retries : Nat} {pending : List π} {answers : List (π × Reply)}
      (asked : answers.map (·.1) <+: pending) : CommitTrace retries pending answers
  | retried {retries : Nat} {first later : List (π × Reply)}
      (rest : CommitTrace retries (failed first) later) :
      CommitTrace (retries + 1) (first.map (·.1)) (first ++ later)

theorem failed_sublist (answers : List (π × Reply)) :
    (failed answers).Sublist (answers.map (·.1)) :=
  List.filter_sublist.map _

theorem CommitTrace.asked {retries : Nat} {answers : List (π × Reply)}
    (trace : CommitTrace retries pending answers) : ∀ answer ∈ answers, answer.1 ∈ pending := by
  induction trace with
  | stopped asked => exact fun answer member => asked.subset (mem_map_of_mem member)
  | retried rest ih =>
    intro answer member
    obtain inFirst | inLater := mem_append.mp member
    · exact mem_map_of_mem inFirst
    · exact (failed_sublist _).subset (ih answer inLater)

variable [DecidableEq π]

theorem answersOf_eq_nil {p : π} {answers : List (π × Reply)}
    (absent : ∀ answer ∈ answers, answer.1 ≠ p) : answersOf p answers = [] := by
  unfold answersOf
  rw [filterMap_eq_nil_iff]
  intro answer member
  rw [if_neg (absent answer member)]

theorem dropLast_of_short {replies : List Reply} (short : replies.length ≤ 1) :
    replies.dropLast = [] := by
  apply eq_nil_of_length_eq_zero
  rw [length_dropLast]
  omega

section

variable {answers : List (π × Reply)} (once : (answers.map (·.1)).Nodup)
include once

/-- An attempt asks each participant once. -/
theorem answersOf_of_mem {answer : π × Reply} (member : answer ∈ answers) :
    answersOf answer.1 answers = [answer.2] := by
  induction answers with
  | nil => cases member
  | cons first rest ih =>
    rw [map_cons, nodup_cons] at once
    rw [← singleton_append, answersOf_append]
    obtain isFirst | inRest := mem_cons.mp member
    · subst isFirst
      have others : answersOf answer.1 rest = [] := by
        apply answersOf_eq_nil
        intro other otherMem same
        exact once.1 (same ▸ mem_map_of_mem otherMem)
      rw [others]
      simp [answersOf]
    · have differ : first.1 ≠ answer.1 := fun same => once.1 (same ▸ mem_map_of_mem inRest)
      rw [ih once.2 inRest]
      simp [answersOf, differ]

theorem answersOf_length_le_one (p : π) : (answersOf p answers).length ≤ 1 := by
  by_cases asked : p ∈ answers.map (·.1)
  · obtain ⟨answer, member, rfl⟩ := mem_map.mp asked
    rw [answersOf_of_mem once member]
    exact Nat.le_refl 1
  have absent : ∀ answer ∈ answers, answer.1 ≠ p := fun answer member same =>
    asked (same ▸ mem_map_of_mem member)
  rw [answersOf_eq_nil absent]
  exact Nat.zero_le 1

theorem answersOf_refused {p : π} (refused : p ∈ failed answers) :
    ∀ answer ∈ answersOf p answers, answer ≠ .ok := by
  obtain ⟨refusal, inFailed, rfl⟩ := mem_map.mp refused
  obtain ⟨member, notOk⟩ := mem_filter.mp inFailed
  rw [answersOf_of_mem once member]
  simpa using notOk

end

/-- Nobody is asked again after an `Ok`, and nobody more often than there are attempts. -/
theorem CommitTrace.answers {retries : Nat} {answers : List (π × Reply)}
    (trace : CommitTrace retries pending answers) (once : pending.Nodup) (p : π) :
    (answersOf p answers).length ≤ retries + 1 ∧
      ∀ answer ∈ (answersOf p answers).dropLast, answer ≠ .ok := by
  induction trace with
  | stopped asked =>
    have short := answersOf_length_le_one (once.sublist asked.sublist) p
    refine ⟨by omega, ?_⟩
    rw [dropLast_of_short short]
    simp
  | @retried retries first later rest ih =>
    obtain ⟨fewLater, laterRefused⟩ := ih (once.sublist (failed_sublist first))
    have short := answersOf_length_le_one once p
    rw [answersOf_append, length_append]
    refine ⟨by omega, ?_⟩
    by_cases refused : p ∈ failed first
    · have firstRefused := answersOf_refused once refused
      intro answer member
      by_cases noneLater : answersOf p later = []
      · rw [noneLater, append_nil] at member
        exact firstRefused answer ((dropLast_sublist _).subset member)
      rw [dropLast_append_of_ne_nil noneLater, mem_append] at member
      obtain inFirst | inLater := member
      · exact firstRefused answer inFirst
      · exact laterRefused answer inLater
    · have noneLater : answersOf p later = [] := by
        apply answersOf_eq_nil
        intro answer member same
        exact refused (same ▸ rest.asked answer member)
      rw [noneLater, append_nil, dropLast_of_short short]
      simp

variable (info : π → ParticipantInfo)

def outcomeOf (p : π) : Reply → ParticipantCommitResult
  | .ok => ⟨(info p).id, true, none⟩
  | .err e => ⟨(info p).id, false, some e⟩

/-- The outcome of a participant is its last answer. -/
def lastOutcome (answers : List (π × Reply)) (p : π) : ParticipantCommitResult :=
  outcomeOf info p ((answersOf p answers).getLastD .ok)

/-- One outcome for each participant, its last answer. -/
structure Outcomes (pending : List π) (answers : List (π × Reply))
    (results : List ParticipantCommitResult) : Prop where
  asked : ∀ p ∈ pending, answersOf p answers ≠ []
  perm : results.Perm (pending.map (lastOutcome info answers))

theorem outcomes_of_attempt {answers : List (π × Reply)} (once : (answers.map (·.1)).Nodup) :
    Outcomes info (answers.map (·.1)) answers
      (answers.map fun answer => outcomeOf info answer.1 answer.2) where
  asked := by
    intro p member
    obtain ⟨answer, inAnswers, rfl⟩ := mem_map.mp member
    rw [answersOf_of_mem once inAnswers]
    simp
  perm := by
    rw [map_map]
    apply List.Perm.of_eq
    apply map_congr_left
    intro answer member
    rw [comp_apply, lastOutcome, answersOf_of_mem once member]
    rfl

/-- The outcomes of an attempt that leaves somebody, and of the attempts after it. -/
theorem outcomes_of_retry {first later : List (π × Reply)} {results : List ParticipantCommitResult}
    (once : (first.map (·.1)).Nodup) (laterAsked : ∀ answer ∈ later, answer.1 ∈ failed first)
    (rest : Outcomes info (failed first) later results) :
    Outcomes info (first.map (·.1)) (first ++ later)
      ((first.filter (·.2 == .ok)).map (fun answer => outcomeOf info answer.1 answer.2) ++
        results) where
  asked := by
    intro p member
    obtain ⟨answer, inFirst, rfl⟩ := mem_map.mp member
    rw [answersOf_append, answersOf_of_mem once inFirst]
    simp
  perm := by
    have split := (filter_append_perm (·.2 == .ok) first).map (·.1)
    rw [map_append] at split
    apply List.Perm.trans _ (split.map _)
    rw [map_append]
    apply List.Perm.append
    · -- Who answered `Ok` is not asked again.
      rw [map_map]
      apply List.Perm.of_eq
      apply map_congr_left
      intro answer member
      obtain ⟨inFirst, isOk⟩ := mem_filter.mp member
      have noneLater : answersOf answer.1 later = [] := by
        apply answersOf_eq_nil
        intro other otherMem same
        have refused := answersOf_refused once (same ▸ laterAsked other otherMem) answer.2
          (by rw [answersOf_of_mem once inFirst]; simp)
        exact refused (by simpa using isOk)
      rw [comp_apply, lastOutcome, answersOf_append, answersOf_of_mem once inFirst,
        noneLater]
      rfl
    · apply rest.perm.trans
      apply List.Perm.of_eq
      apply map_congr_left
      intro p member
      have asked := rest.asked p member
      rw [lastOutcome, lastOutcome, answersOf_append]
      congr 1
      rw [getLastD_eq_getLast?, getLastD_eq_getLast?, getLast?_append,
        getLast?_eq_some_getLast asked]
      rfl

end Answers

/-! ## The phases -/

section Phases

variable (info : π → ParticipantInfo) {I : CallLog π → Prop} {w : CallLog π}

def CallLog.withPrepares (w : CallLog π) (answers : List (π × Reply)) : CallLog π :=
  { w with trace := w.trace ++ answers.map fun answer => .prepared answer.1 answer.2 }

def CallLog.withCommits (w : CallLog π) (answers : List (π × Reply)) : CallLog π :=
  { w with trace := w.trace ++ answers.map fun answer => .committed answer.1 answer.2 }

theorem CallLog.withPrepares_cons (w : CallLog π) (answer : π × Reply)
    (answers : List (π × Reply)) :
    w.withPrepares (answer :: answers) = (w.withPrepares [answer]).withPrepares answers := by
  simp [CallLog.withPrepares]

theorem CallLog.withCommits_append (w : CallLog π) (first second : List (π × Reply)) :
    w.withCommits (first ++ second) = (w.withCommits first).withCommits second := by
  simp [CallLog.withCommits]

@[simp] theorem CallLog.withCommits_nil (w : CallLog π) : w.withCommits [] = w := by
  simp [CallLog.withCommits]

@[simp] theorem CallLog.withPrepares_nil (w : CallLog π) : w.withPrepares [] = w := by
  simp [CallLog.withPrepares]

/-- `update_status` leaves everything as it is, or saves the status. -/
theorem always_updateStatus (transactionId : String) (status : TransactionStatus) (hI : I w)
    (saved : ∀ log, I { log, trace := w.trace ++ [.saved status.asStr] }) :
    Always recordCall I
      (fun result w' => ∀ log, result = .ok log →
        ∃ log', w' = { log := log', trace := w.trace ++ [.saved status.asStr] })
      (updateStatus transactionId status) w := by
  refine .call hI fun choice => ?_
  cases choice with
  | err e => exact .ret hI fun _ failed => by cases failed
  | ok =>
    cases hlog : w.log with
    | none =>
      simp only [recordCall, hlog]
      exact .ret hI fun _ failed => by cases failed
    | some log =>
      simp only [recordCall, hlog]
      refine .call hI fun _ => ?_
      exact .ret (saved _) fun _ _ => ⟨_, rfl⟩

/-- The votes: in order, up to the first refusal. -/
theorem always_collectVotes (participants : List π)
    (hI : ∀ answers, answers.map (·.1) <+: participants →
      (∀ answer ∈ answers.dropLast, answer.2 = .ok) → I (w.withPrepares answers)) :
    Always recordCall I
      (fun votes w' => ∃ answers, w' = w.withPrepares answers ∧
        answers.map (·.1) <+: participants ∧ (∀ answer ∈ answers.dropLast, answer.2 = .ok) ∧
        (votes.all (·.vote) = true → answers = participants.map (·, .ok)))
      (collectVotes info participants) w := by
  have here : I w := by simpa using hI [] nil_prefix (by simp)
  induction participants generalizing w with
  | nil => exact .ret here ⟨[], by simp, nil_prefix, by simp, fun _ => rfl⟩
  | cons p rest ih =>
    refine .await here fun choice => ?_
    cases choice with
    | err e =>
      refine .ret ?_ ⟨[(p, .err e)], rfl, by simp, by simp, by simp⟩
      exact hI [(p, .err e)] (by simp) (by simp)
    | ok =>
      have longer : ∀ answers : List (π × Reply), (∀ answer ∈ answers.dropLast, answer.2 = .ok) →
          ∀ answer ∈ ((p, Reply.ok) :: answers).dropLast, answer.2 = .ok := by
        intro answers allOk
        cases answers with
        | nil => nofun
        | cons first answers => exact forall_mem_cons.mpr ⟨rfl, allOk⟩
      have hI' : ∀ answers : List (π × Reply), answers.map (·.1) <+: rest →
          (∀ answer ∈ answers.dropLast, answer.2 = .ok) →
          I ((w.withPrepares [(p, .ok)]).withPrepares answers) := by
        intro answers asked allOk
        rw [← CallLog.withPrepares_cons]
        apply hI _ _ (longer answers allOk)
        exact cons_prefix_cons.mpr ⟨rfl, asked⟩
      have next := ih hI' (by simpa using hI' [] nil_prefix (by simp))
      refine Always.bind next fun votes w' here' outcome => ?_
      obtain ⟨answers, rfl, asked, allOk, agreed⟩ := outcome
      refine .ret here' ⟨(p, .ok) :: answers, (CallLog.withPrepares_cons _ _ _).symm, ?_,
        longer answers allOk, ?_⟩
      · rw [map_cons]
        exact cons_prefix_cons.mpr ⟨rfl, asked⟩
      · intro all
        rw [agreed (by simpa using all), map_cons]

/-- An attempt asks the pending participants once, in order. -/
theorem always_commitAttempt (last : Bool) (pending : List π)
    (hI : ∀ answers, answers.map (·.1) <+: pending → I (w.withCommits answers)) :
    Always recordCall I
      (fun result w' => ∃ answers, answers.map (·.1) = pending ∧ w' = w.withCommits answers ∧
        result = (((if last then answers else answers.filter (·.2 == .ok)).map fun answer =>
            outcomeOf info answer.1 answer.2), if last then [] else failed answers))
      (commitAttempt info last pending) w := by
  have here : I w := by simpa using hI [] nil_prefix
  induction pending generalizing w with
  | nil =>
    refine .ret here ⟨[], rfl, by simp, ?_⟩
    cases last <;> rfl
  | cons p rest ih =>
    refine .await here fun choice => ?_
    have hI' : ∀ answers : List (π × Reply), answers.map (·.1) <+: rest →
        I ((w.withCommits [(p, choice)]).withCommits answers) := by
      intro answers asked
      rw [← CallLog.withCommits_append]
      apply hI
      exact cons_prefix_cons.mpr ⟨rfl, asked⟩
    have next := ih hI' (by simpa using hI' [] nil_prefix)
    refine Always.bind next fun result w' here' outcome => ?_
    obtain ⟨answers, asked, rfl, rfl⟩ := outcome
    have trace := (CallLog.withCommits_append w [(p, choice)] answers).symm
    cases choice with
    | ok =>
      refine .ret here' ⟨(p, .ok) :: answers, by rw [map_cons, asked], trace, ?_⟩
      cases last <;> simp [outcomeOf, failed]
    | err e =>
      cases last
      all_goals
        refine .ret here' ⟨(p, .err e) :: answers, by rw [map_cons, asked], trace, ?_⟩
        simp [outcomeOf, failed]

/-- The commit phase returns one outcome for each participant, its last answer. -/
theorem always_commitPhase [DecidableEq π] (retries : Nat) (once : pending.Nodup)
    (hI : ∀ answers, CommitTrace retries pending answers → I (w.withCommits answers)) :
    Always recordCall I
      (fun results w' => ∃ answers, w' = w.withCommits answers ∧
        CommitTrace retries pending answers ∧ Outcomes info pending answers results)
      (commitPhase info retries pending) w := by
  induction retries generalizing w pending with
  | zero =>
    refine Always.bind (always_commitAttempt info true pending fun answers asked =>
      hI answers (.stopped asked)) fun result w' here outcome => ?_
    obtain ⟨answers, rfl, rfl, rfl⟩ := outcome
    exact .ret here ⟨answers, rfl, .stopped prefix_rfl, outcomes_of_attempt info once⟩
  | succ retries ih =>
    refine Always.bind (always_commitAttempt info false pending fun answers asked =>
      hI answers (.stopped asked)) fun result w' here outcome => ?_
    obtain ⟨first, rfl, rfl, rfl⟩ := outcome
    simp only [Bool.false_eq_true, if_false]
    split
    · rename_i nobodyLeft
      have none : failed first = [] := by simpa using nobodyLeft
      have idle : Outcomes info (failed first) [] [] := by
        rw [none]
        exact ⟨by simp, List.Perm.refl _⟩
      have outcomes := outcomes_of_retry info once (by simp) idle
      rw [append_nil, append_nil] at outcomes
      exact .ret here ⟨first, rfl, .stopped prefix_rfl, outcomes⟩
    · have hI' : ∀ answers, CommitTrace retries (failed first) answers →
          I ((w.withCommits first).withCommits answers) := by
        intro answers trace
        rw [← CallLog.withCommits_append]
        exact hI _ (.retried trace)
      refine Always.bind (ih (once.sublist (failed_sublist first)) hI')
        fun results w' here' outcome => ?_
      obtain ⟨later, rfl, trace, outcomes⟩ := outcome
      exact .ret here' ⟨first ++ later, (CallLog.withCommits_append _ _ _).symm, .retried trace,
        outcomes_of_retry info once trace.asked outcomes⟩

end Phases

/-! ## Disciplined traces -/

section Traces

section

variable (answers : List (π × Reply))
include answers

@[simp] theorem prepares_withCommits :
    prepares (answers.map fun answer => Event.committed answer.1 answer.2) = [] := by
  simp [prepares]

@[simp] theorem commits_withCommits :
    commits (answers.map fun answer => Event.committed answer.1 answer.2) = answers := by
  simp [commits]

@[simp] theorem prepares_withPrepares :
    prepares (answers.map fun answer => Event.prepared answer.1 answer.2) = answers := by
  simp [prepares]

@[simp] theorem commits_withPrepares :
    commits (answers.map fun answer => Event.prepared answer.1 answer.2) = [] := by
  simp [commits]

end

variable [DecidableEq π] {participants : List π} {trace : List (Event π)}

/-- Before the commits, the order of the preparations is all there is. -/
theorem disciplined_of_prepares (noCommits : commits trace = [])
    (inOrder : (prepares trace).map (·.1) <+: participants)
    (untilRefusal : ∀ answer ∈ (prepares trace).dropLast, answer.2 = .ok) :
    Disciplined participants trace where
  inOrder := inOrder
  untilRefusal := untilRefusal
  guarded := by
    intro before p answer after shape
    rw [shape, commits_append] at noCommits
    cases (append_eq_nil_iff.mp noCommits).2
  settled := by
    intro p answer member
    rw [noCommits] at member
    cases member
  atMostThree := by
    intro p
    rw [noCommits]
    exact Nat.zero_le 3

/-- The commits of a phase after the save. -/
theorem disciplined_of_commits (once : participants.Nodup) (noCommits : commits trace = [])
    (ready : ReadyToCommit participants trace) {answers : List (π × Reply)}
    (asked : CommitTrace 2 participants answers) :
    Disciplined participants
      (trace ++ answers.map fun answer => .committed answer.1 answer.2) where
  inOrder := by
    rw [prepares_append, prepares_withCommits, append_nil, ready.1]
    simp [comp_def]
  untilRefusal := by
    intro answer member
    rw [prepares_append, prepares_withCommits, append_nil, ready.1] at member
    obtain ⟨p, _, rfl⟩ := mem_map.mp ((dropLast_sublist _).subset member)
    rfl
  guarded := by
    intro before p answer after shape
    -- The commit is one of the new ones, so only new commits stand between it and the trace.
    obtain ⟨done, isBefore⟩ : ∃ done : List (π × Reply),
        before = trace ++ done.map fun answer => .committed answer.1 answer.2 := by
      obtain longer | shorter := append_eq_append_iff.mp shape
      · obtain ⟨between, isBefore, new⟩ := longer
        obtain ⟨done, _, _, isDone, _⟩ := map_eq_append_iff.mp new
        exact ⟨done, by rw [isBefore, isDone]⟩
      obtain ⟨between, isTrace, new⟩ := shorter
      cases between with
      | nil => exact ⟨[], by simpa using isTrace.symm⟩
      | cons event between =>
        rw [cons_append, cons.injEq] at new
        rw [isTrace, ← new.1, commits_append] at noCommits
        cases (append_eq_nil_iff.mp noCommits).2
    subst isBefore
    constructor
    · rw [prepares_append, prepares_withCommits, append_nil, ready.1]
    · rw [← ready.2]
      simp [savedStatus]
  settled := by
    intro p
    rw [commits_append, noCommits, commits_withCommits]
    exact (asked.answers once p).2
  atMostThree := by
    intro p
    rw [commits_append, noCommits, commits_withCommits]
    exact (asked.answers once p).1

/-- Saves and rollbacks keep the discipline. -/
theorem Disciplined.append (disciplined : Disciplined participants trace) {event : Event π}
    (noPrepare : prepares [event] = []) (noCommit : commits [event] = []) :
    Disciplined participants (trace ++ [event]) where
  inOrder := by
    rw [prepares_append, noPrepare, append_nil]
    exact disciplined.inOrder
  untilRefusal := by
    rw [prepares_append, noPrepare, append_nil]
    exact disciplined.untilRefusal
  guarded := by
    intro before p answer after shape
    cases after using reverseRecOn with
    | nil =>
      have last := append_inj_right' shape rfl
      rw [singleton_inj.mp last] at noCommit
      cases noCommit
    | append_singleton after event' =>
      have whole : trace = before ++ Event.committed p answer :: after := by
        rw [← cons_append, ← append_assoc] at shape
        exact append_inj_left' shape rfl
      exact disciplined.guarded before p answer after whole
  settled := by
    rw [commits_append, noCommit, append_nil]
    exact disciplined.settled
  atMostThree := by
    rw [commits_append, noCommit, append_nil]
    exact disciplined.atMostThree

theorem Disciplined.saved (disciplined : Disciplined participants trace) (status : String) :
    Disciplined participants (trace ++ [.saved status]) :=
  disciplined.append rfl rfl

end Traces

/-! ## The whole call -/

variable {w : CallLog π}

section Call

variable [DecidableEq π] (info : π → ParticipantInfo) {participants : List π}

/-- Everybody has answered `Ok` to a commit. -/
def AllAnsweredOk (participants : List π) (trace : List (Event π)) : Prop :=
  ∀ p ∈ participants, .ok ∈ answersOf p (commits trace)

theorem AllAnsweredOk.append {trace : List (Event π)} (all : AllAnsweredOk participants trace)
    (more : List (Event π)) : AllAnsweredOk participants (trace ++ more) := by
  intro p member
  rw [commits_append, answersOf_append]
  exact mem_append_left _ (all p member)

theorem always_rollbackPhase (asked : List π) (disciplined : Disciplined participants w.trace) :
    Always recordCall (fun w => Disciplined participants w.trace) (fun _ _ => True)
      (rollbackPhase info asked) w := by
  have collected : Always recordCall (fun w => Disciplined participants w.trace) (fun _ _ => True)
      (collectRollbackErrors info asked) w := by
    induction asked generalizing w with
    | nil => exact .ret disciplined trivial
    | cons p rest ih =>
      refine .await disciplined fun choice => ?_
      have next : Disciplined participants (recordCall w (.rollback p) choice).2.trace :=
        disciplined.append rfl rfl
      refine Always.bind (ih next) fun errors w' here _ => ?_
      cases choice with
      | ok | err => exact .ret here trivial
  exact collected.bind fun errors w' here _ => .ret here trivial

/-- The end of a call that does not commit. -/
theorem always_fail {transactionId : String} {final : TransactionStatus}
    {message : TransactionLog → String} (disciplined : Disciplined participants w.trace) :
    Always recordCall (fun w => Disciplined participants w.trace)
      (fun result w' => ∀ log : TransactionLog, result = .ok log →
        AllAnsweredOk participants w'.trace)
      ((updateStatus transactionId .rollingBack).andOk fun _ =>
        (rollbackPhase info participants).bind fun _ =>
        (updateStatus transactionId final).andOk fun log =>
        (stateMachine .failed).bind fun _ => .ret (.error (message log))) w := by
  refine Always.andOk (always_updateStatus transactionId _ disciplined fun log =>
    disciplined.saved _) (fun log w' here _ => ?_) fun e w' _ _ => by simp
  refine Always.bind (always_rollbackPhase info participants here) fun _ w' here _ => ?_
  refine Always.andOk (always_updateStatus transactionId _ here fun log => here.saved _)
    (fun log w' here _ => ?_) fun e w' _ _ => by simp
  refine .await here fun choice => ?_
  exact .ret here (by simp)

/-- If every outcome is a success, everybody has answered `Ok`. -/
theorem allAnsweredOk_of_outcomes {trace : List (Event π)} {answers : List (π × Reply)}
    {results : List ParticipantCommitResult} (outcomes : Outcomes info participants answers results)
    (committed : allCommitted participants results = true) :
    AllAnsweredOk participants
      (trace ++ answers.map fun answer => .committed answer.1 answer.2) := by
  intro p member
  have nonempty : participants.isEmpty = false := by simpa using ne_nil_of_mem member
  simp only [allCommitted, nonempty, Bool.false_or, Bool.and_eq_true, all_eq_true] at committed
  have success := committed.2 _
    (outcomes.perm.mem_iff.mpr (mem_map_of_mem member))
  have asked := outcomes.asked p member
  have last : (answersOf p answers).getLastD .ok = (answersOf p answers).getLast asked := by
    rw [getLastD_eq_getLast?, getLast?_eq_some_getLast asked]
    rfl
  rw [lastOutcome, last] at success
  have isOk : (answersOf p answers).getLast asked = .ok := by
    cases answer : (answersOf p answers).getLast asked with
    | ok => rfl
    | err e => rw [answer] at success; cases success
  rw [commits_append, commits_withCommits, answersOf_append, ← isOk]
  exact mem_append_right _ (getLast_mem asked)

/-- The prepare phase ends with the votes; if all agree, everybody has been prepared. -/
theorem always_preparePhase (transactionId : String)
    (fresh : prepares w.trace = [] ∧ commits w.trace = []) :
    Always recordCall (fun w => Disciplined participants w.trace)
      (fun result w' => ∀ votes, result = .ok votes → commits w'.trace = [] ∧
        (votes.all (·.vote) = true → prepares w'.trace = participants.map (·, .ok)))
      (preparePhase info transactionId participants) w := by
  have saved : ∀ status : String, prepares (w.trace ++ [.saved status]) = [] ∧
      commits (w.trace ++ [.saved status]) = [] := by
    intro status
    rw [prepares_append, commits_append, fresh.1, fresh.2]
    exact ⟨rfl, rfl⟩
  have prepared : ∀ (trace : List (Event π)), prepares trace = [] ∧ commits trace = [] →
      ∀ answers : List (π × Reply), answers.map (·.1) <+: participants →
      (∀ answer ∈ answers.dropLast, answer.2 = .ok) →
      Disciplined participants
        (trace ++ answers.map fun answer => .prepared answer.1 answer.2) := by
    intro trace none answers asked allOk
    apply disciplined_of_prepares
    · rw [commits_append, none.2, commits_withPrepares, nil_append]
    · rwa [prepares_append, none.1, prepares_withPrepares, nil_append]
    · rwa [prepares_append, none.1, prepares_withPrepares, nil_append]
  have nothing : Disciplined participants w.trace :=
    disciplined_of_prepares fresh.2 (by simp [fresh.1]) (by simp [fresh.1])
  refine Always.andOk (always_updateStatus transactionId _ nothing fun log => nothing.saved _)
    (fun log w' here written => ?_) fun e w' _ _ => by simp
  obtain ⟨log', rfl⟩ := written log rfl
  refine Always.bind (always_collectVotes info participants (prepared _ (saved _)))
    fun votes w' here outcome => ?_
  obtain ⟨answers, rfl, _, _, agreed⟩ := outcome
  have noCommits : commits (w.trace ++ [.saved TransactionStatus.preparing.asStr] ++
      answers.map fun answer => Event.prepared answer.1 answer.2) = [] := by
    rw [commits_append, (saved _).2, commits_withPrepares]
    rfl
  split
  · rename_i all
    have allPrepared : prepares (w.trace ++ [.saved TransactionStatus.preparing.asStr] ++
        answers.map fun answer => Event.prepared answer.1 answer.2) =
          participants.map (·, .ok) := by
      rw [prepares_append, (saved _).1, prepares_withPrepares, agreed all, nil_append]
    refine Always.andOk (always_updateStatus transactionId _ here fun log => here.saved _)
      (fun log w' here written => ?_) fun e w' _ _ => by simp
    obtain ⟨log'', rfl⟩ := written log rfl
    refine .ret here fun votes' _ => ⟨?_, fun _ => ?_⟩
    · rw [commits_append, CallLog.withPrepares, noCommits]
      rfl
    · rw [prepares_append, CallLog.withPrepares, allPrepared]
      exact append_nil _
  · rename_i disagreed
    refine .ret here fun votes' same => ⟨noCommits, fun all => ?_⟩
    cases same
    exact absurd all disagreed

/-- The discipline holds at every point of a call, and a call that succeeds has an `Ok` from
everybody. -/
theorem always_execute (transactionId : String) (once : participants.Nodup) :
    Always recordCall (fun w => Disciplined participants w.trace)
      (fun result w' => ∀ log, result = .ok log → AllAnsweredOk participants w'.trace)
      (execute info transactionId participants) {} := by
  have start : Disciplined participants ([] : List (Event π)) :=
    disciplined_of_prepares rfl nil_prefix (by simp [prepares])
  have begun : Disciplined participants ([.saved TransactionStatus.preparing.asStr] :
      List (Event π)) := start.saved _
  refine Always.andOk (Q := fun _ w' => w'.trace = [.saved TransactionStatus.preparing.asStr])
    (.call start fun _ => .ret begun rfl) (fun _ w here first => ?_) fun e w' _ _ => by simp
  refine Always.andOk (Q := fun _ w' => w'.trace = w.trace)
    (.call here fun _ => .ret here rfl) (fun _ w' here second => ?_) fun e w' _ _ => by simp
  · have fresh : prepares w'.trace = [] ∧ commits w'.trace = [] := by
      rw [second, first]
      exact ⟨rfl, rfl⟩
    refine Always.andOk (always_preparePhase info transactionId fresh)
      (fun votes w' here voted => ?_) fun e w' _ _ => by simp
    obtain ⟨noCommits, agreed⟩ := voted votes rfl
    split
    · rename_i all
      refine Always.andOk (always_updateStatus transactionId _ here fun log => here.saved _)
        (fun log w'' here written => ?_) fun e w' _ _ => by simp
      obtain ⟨log', rfl⟩ := written log rfl
      have ready : ReadyToCommit participants
          (w'.trace ++ [.saved TransactionStatus.committing.asStr]) := by
        constructor
        · rw [prepares_append, agreed all]
          exact append_nil _
        · simp [savedStatus, filterMap_append]
      have noneYet : commits (w'.trace ++ [.saved TransactionStatus.committing.asStr]) = [] := by
        rw [commits_append, noCommits]
        rfl
      refine Always.bind (always_commitPhase info 2 once fun answers asked =>
        disciplined_of_commits once noneYet ready asked) fun results w'' here outcome => ?_
      obtain ⟨answers, rfl, _, outcomes⟩ := outcome
      split
      · rename_i committed
        have allOk : AllAnsweredOk participants
            (w'.trace ++ [.saved TransactionStatus.committing.asStr] ++
              answers.map fun answer => .committed answer.1 answer.2) :=
          allAnsweredOk_of_outcomes info outcomes committed
        refine Always.andOk (always_updateStatus transactionId _ here fun log => here.saved _)
          (fun log w'' here written => ?_) fun e w' _ _ => by simp
        obtain ⟨log'', rfl⟩ := written log rfl
        refine .await here fun choice => ?_
        exact .ret here fun _ _ => allOk.append _
      · exact always_fail info here
    · exact always_fail info here

end Call

/-- At every point of every `execute` call on a list of participants the calls are disciplined;
a call that returns `Ok` has an `Ok` from everybody; and a commit phase returns one outcome for
each participant, its last answer. -/
theorem call_discipline {P : Type} (info : P → ParticipantInfo) (transactionId : String)
    (participants : List P) :
    (∀ choices, Disciplined (List.finRange participants.length)
      (exec recordCall (execute (fun i => info (participants.get i)) transactionId
        (List.finRange participants.length)) {} choices).2.trace) ∧
    (∀ choices log w, exec recordCall (execute (fun i => info (participants.get i)) transactionId
        (List.finRange participants.length)) {} choices = (.ret (.ok log), w) →
      ∀ i, .ok ∈ answersOf i (commits w.trace)) ∧
    ∀ (w : CallLog (Fin participants.length)) choices results w',
      exec recordCall (commitPhase (fun i => info (participants.get i)) 2
        (List.finRange participants.length)) w choices = (.ret results, w') →
      ∃ answers, w' = w.withCommits answers ∧
        (∀ i, answersOf i answers ≠ []) ∧
        results.Perm ((List.finRange participants.length).map
          (lastOutcome (fun i => info (participants.get i)) answers)) := by
  have once := nodup_finRange participants.length
  have always := always_execute (fun i => info (participants.get i)) transactionId once
  refine ⟨fun choices => always.exec_inv choices, ?_, ?_⟩
  · intro choices log w returned i
    exact always.exec_post returned log rfl i (mem_finRange i)
  intro w choices results w' returned
  have phase := always_commitPhase (I := fun _ => True) (w := w)
    (fun i => info (participants.get i)) 2 once fun _ _ => trivial
  obtain ⟨answers, same, _, outcomes⟩ := phase.exec_post returned
  exact ⟨answers, same, fun i => outcomes.asked i (mem_finRange i), outcomes.perm⟩

/-- A call in which the second participant commits on the second attempt. -/
theorem call_discipline_retry : ∃ log w,
    exec recordCall (execute (fun i => ⟨["a", "b"].get i, "", ""⟩) "t" (List.finRange 2)) {}
        (List.replicate 11 .ok ++ .err "busy" :: List.replicate 5 .ok) = (.ret (.ok log), w) ∧
      answersOf 1 (commits w.trace) = [.err "busy", .ok] ∧
      ∀ i, .ok ∈ answersOf i (commits w.trace) := by
  have returned : ∃ log w,
      exec recordCall (execute (fun i => ⟨["a", "b"].get i, "", ""⟩) "t" (finRange 2)) {}
          (replicate 11 .ok ++ .err "busy" :: replicate 5 .ok) = (.ret (.ok log), w) ∧
        answersOf 1 (commits w.trace) = [.err "busy", .ok] := ⟨_, _, rfl, rfl⟩
  obtain ⟨log, w, returned, answers⟩ := returned
  exact ⟨log, w, returned, answers,
    (call_discipline (fun id => ⟨id, "", ""⟩) "t" ["a", "b"]).2.1 _ log w returned⟩

end Dbx.Guarantees.CallDiscipline
