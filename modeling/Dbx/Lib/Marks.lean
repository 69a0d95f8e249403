import Dbx.Lib.Lexing

/-!
# Texts with their lexical kinds

`Rules.marks` gives every character of a text with its kind: code, part of a literal or
quoted name, or part of a comment. The lexer looks ahead, so the kinds of a text may change
with what follows it; they do not if the text ends with a bracket that is code
(`marks_append`).

The dialects here are those without alternative quotes, whose last character `Rules.step`
passes over like the last one of a comment.
-/
namespace Dbx.Lib.Lexing

open Dbx.Lib.Text List

inductive Kind where
  | code | literal | comment
  deriving DecidableEq, Repr

abbrev Marked := Char × Kind

namespace Rules

variable (rules : Rules)

/-- The kind of a character, by the mode before it and what it leaves. -/
def kindOf (mode : Mode) (emit : List Piece) : Kind :=
  match mode with
  | .line | .block _ => .comment
  | .silent (.quoted _ _) => .literal
  | .silent _ => .comment
  | .code =>
    match emit with
    | some _ :: _ => .code
    | none :: _ => .literal
    | [] => .comment
  | _ => .literal

def marksFrom (mode : Mode) (word : Str) : Str → List Marked
  | [] => []
  | ch :: rest =>
    let step := rules.step mode word ch rest
    (ch, kindOf mode step.emit) :: marksFrom step.next (rules.nextWord word step.emit) rest

def marks (text : Str) : List Marked := rules.marksFrom .code [] text

@[simp] theorem marks_nil : rules.marks [] = [] := rfl

theorem map_fst_marksFrom (mode : Mode) (word text : Str) :
    (rules.marksFrom mode word text).map Prod.fst = text := by
  induction text generalizing mode word with
  | nil => rfl
  | cons ch text ih => simp [marksFrom, ih]

/-- Only in code a character can be code. -/
theorem mode_of_kindOf {mode : Mode} {emit : List Piece} (h : kindOf mode emit = .code) :
    mode = .code := by
  unfold kindOf at h
  split at h
  all_goals first
    | rfl
    | cases h

attribute [local simp] isExecutable

theorem isExecutable_take (front : Str) :
    rules.isExecutable front = rules.isExecutable (front.take 3) := by
  match front with
  | [] | [x] | [x, y] => rfl
  | x :: y :: z :: front =>
    by_cases star : x = '*'
    · by_cases mark : y = '!'
      · simp [star, mark]
      by_cases letter : y = 'M'
      · by_cases last : z = '!'
        · simp [star, letter, last]
        · simp [star, letter, last]
      · simp [star, mark, letter]
    · simp [star]

section

variable {rules} (bracket : rules.identChar ')' = false)
include bracket

/-- The tag of a dollar quote ends before a bracket. -/
theorem dollarTag_congr {front rest rest' : Str} :
    rules.dollarTag (front ++ ')' :: rest) = rules.dollarTag (front ++ ')' :: rest') := by
  have name : ∀ rest : Str, (front ++ ')' :: rest).takeWhile (fun c => rules.identChar c && c != '$') =
      front.takeWhile fun c => rules.identChar c && c != '$' := by
    intro rest
    rw [takeWhile_append]
    split
    · rename_i whole
      simp [bracket, ( takeWhile_prefix _).eq_of_length whole]
    · rfl
  have next : ∀ rest : Str, ((front ++ ')' :: rest).drop
      (front.takeWhile fun c => rules.identChar c && c != '$').length).head? =
        ((front.drop (front.takeWhile fun c => rules.identChar c && c != '$').length) ++
          [')']).head? := by
    intro rest
    have := ( takeWhile_prefix (l := front) fun c => rules.identChar c && c != '$').length_le
    rw [drop_append_of_le_length this, head?_append, head?_append]
    rfl
  unfold dollarTag
  simp only [name rest, name rest', next rest, next rest']

/-- A step does not look behind a bracket. -/
theorem step_congr (mode : Mode) (word : Str) (ch : Char) (front rest rest' : Str) :
    rules.step mode word ch (front ++ ')' :: rest) =
      rules.step mode word ch (front ++ ')' :: rest') := by
  have head : (front ++ ')' :: rest).head? = (front ++ ')' :: rest').head? := by
    rw [head?_append, head?_append]
    rfl
  have dashes : (ch == '-' && (front ++ ')' :: rest).head? == some '-' &&
        rules.opensComment (front ++ ')' :: rest).tail.head?) =
      (ch == '-' && (front ++ ')' :: rest').head? == some '-' &&
        rules.opensComment (front ++ ')' :: rest').tail.head?) := by
    match front with
    | [] | [x] | x :: y :: front => simp
  have executable : rules.isExecutable (front ++ ')' :: rest) =
      rules.isExecutable (front ++ ')' :: rest') := by
    match front with
    | [] => rfl
    | [x] => by_cases star : x = '*' <;> simp [star]
    | [x, y] =>
      rw [isExecutable_take, rules.isExecutable_take ([x, y] ++ ')' :: rest')]
      rfl
    | x :: y :: z :: front =>
      rw [isExecutable_take, rules.isExecutable_take (x :: y :: z :: front ++ ')' :: rest')]
      rfl
  have code : rules.codeStep word ch (front ++ ')' :: rest) =
      rules.codeStep word ch (front ++ ')' :: rest') := by
    unfold codeStep
    rw [dashes, head, executable, dollarTag_congr bracket]
  unfold step
  rw [code, head]

/-- The state before a bracket, which does not depend on what follows. -/
theorem exists_marksFrom (mode : Mode) (word front : Str) :
    ∃ before mode' word', ∀ rest, rules.marksFrom mode word (front ++ ')' :: rest) =
      before ++ rules.marksFrom mode' word' (')' :: rest) := by
  induction front generalizing mode word with
  | nil => exact ⟨[], mode, word, fun rest => rfl⟩
  | cons ch front ih =>
    let first := rules.step mode word ch (front ++ [')'])
    obtain ⟨before, mode', word', same⟩ := ih first.next (rules.nextWord word first.emit)
    refine ⟨(ch, kindOf mode first.emit) :: before, mode', word', fun rest => ?_⟩
    have step : rules.step mode word ch (front ++ ')' :: rest) = first :=
      step_congr bracket mode word ch front rest []
    rw [cons_append, marksFrom, step, cons_append, ← same]

theorem marksFrom_bracket (word rest : Str) :
    rules.marksFrom .code word (')' :: rest) = (')', .code) :: rules.marks rest := by
  have step : rules.step .code word ')' rest = ⟨[some ')'], .code⟩ := by
    simp [step, codeStep]
  rw [marksFrom, step]
  simp [kindOf, nextWord, bracket, marks]

/-- Behind a bracket that is code the text is read from its start. -/
theorem marks_append {text : Str} (last : (rules.marks text).getLast? = some (')', .code))
    (rest : Str) : rules.marks (text ++ rest) = rules.marks text ++ rules.marks rest := by
  have ends : text.getLast? = some ')' := by
    have chars := rules.map_fst_marksFrom .code [] text
    rw [← chars, getLast?_map]
    exact congrArg (Option.map Prod.fst) last
  obtain ⟨front, rfl⟩ : ∃ front, text = front ++ [')'] := getLast?_eq_some_iff.mp ends
  obtain ⟨before, mode, word, same⟩ := exists_marksFrom bracket .code [] front
  have code : mode = .code := by
    rw [marks, same, getLast?_append, marksFrom, marksFrom] at last
    simp only [getLast?_singleton, Option.some_or, Option.some.injEq, Prod.mk.injEq,
      true_and] at last
    exact mode_of_kindOf last
  subst code
  rw [marks, append_assoc, singleton_append, same, marks, same, marksFrom_bracket bracket,
    marksFrom_bracket bracket, append_assoc]
  rfl

end

end Rules

end Dbx.Lib.Lexing
