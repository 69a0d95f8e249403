import Dbx.Lib.Lexing

/-!
# Top-level semicolons

A reading of SQL text that tells code from quoted text and comments, one character at a time
with the next one in sight: a doubled quote does not end a quoted text, a line comment starts
at `--` and ends with its line, a block comment starts at `/*` and ends at the first `*/`
behind that. `segments` cuts a text at the semicolons that are code, and `showsCode` tells
whether more than blanks and comments stands in a segment.

`apart` excludes the two places where a reader that remembers only the last character goes
wrong: a slash right behind `/*` and a star right behind `*/`.
-/
namespace Dbx.Lib.TopLevel

open Dbx.Lib.Text Dbx.Lib.Lexing List

/-- What the next character is read as. -/
inductive Mode where
  | code
  /-- The second dash of `--`. -/
  | dash
  | line
  /-- The star of `/*`. -/
  | slash
  | block
  /-- The slash of `*/`. -/
  | star
  | quoted (q : Quote)
  /-- The second quote of a doubled one. -/
  | doubled (q : Quote)
  deriving DecidableEq, Repr

def quoteAt (c : Char) : Option Quote :=
  if c = '\'' then some .single else if c = '"' then some .double
  else if c = '\x60' then some .back else none

def Mode.after : Mode → Char → Option Char → Mode
  | .code, c, next =>
    if c = '-' ∧ next = some '-' then .dash
    else if c = '/' ∧ next = some '*' then .slash
    else match quoteAt c with
      | some q => .quoted q
      | none => .code
  | .dash, _, _ => .line
  | .line, c, _ => if c = '\n' then .code else .line
  | .slash, _, _ => .block
  | .block, c, next => if c = '*' ∧ next = some '/' then .star else .block
  | .star, _, _ => .code
  | .quoted q, c, next =>
    if c = q.char then (if next = some q.char then .doubled q else .code) else .quoted q
  | .doubled q, _, _ => .quoted q

/-- The text cut at its top-level semicolons. -/
def segments : Mode → Str → List Str
  | _, [] => [[]]
  | mode, c :: rest =>
    if mode = .code ∧ c = ';' then [] :: segments .code rest
    else
      match segments (mode.after c rest.head?) rest with
      | [] => []
      | first :: others => (c :: first) :: others

/-- The rest of a comment that some servers execute, behind its `/*`. -/
def isExecutable : Str → Bool
  | '!' :: _ => true
  | 'M' :: '!' :: _ => true
  | _ => false

/-- A character of code that is no blank and opens no comment, or the opening of a comment that
is executed. -/
def shows (mode : Mode) (c : Char) (rest : Str) : Bool :=
  if mode = .code then
    match mode.after c rest.head? with
    | .dash => false
    | .slash => isExecutable rest.tail
    | _ => !isWhitespace c
  else false

variable {c : Char} {rest : Str} {mode : Mode}

theorem shows_dash (after : Mode.after .code c rest.head? = .dash) :
    shows .code c rest = false := by
  simp [shows, after]

theorem shows_slash (after : Mode.after .code c rest.head? = .slash) :
    shows .code c rest = isExecutable rest.tail := by
  simp [shows, after]

def showsCode : Mode → Str → Bool
  | _, [] => false
  | mode, c :: rest => shows mode c rest || showsCode (mode.after c rest.head?) rest

/-- No block comment starts with a slash, and none has a star right behind it. -/
def apart : Mode → Str → Bool
  | _, [] => true
  | mode, c :: rest =>
    !(mode = .slash ∧ rest.head? = some '/') && !(mode = .star ∧ rest.head? = some '*') &&
      apart (mode.after c rest.head?) rest

theorem apart_cons : apart mode (c :: rest) = true ↔
      ¬(mode = .slash ∧ rest.head? = some '/') ∧ ¬(mode = .star ∧ rest.head? = some '*') ∧
        apart (mode.after c rest.head?) rest = true := by
  rw [apart, Bool.and_eq_true, Bool.and_eq_true, Bool.not_eq_true', Bool.not_eq_true',
    decide_eq_false_iff_not, decide_eq_false_iff_not, and_assoc]

theorem segments_ne_nil (mode : Mode) (text : Str) : segments mode text ≠ [] := by
  induction text generalizing mode with
  | nil => exact cons_ne_nil _ _
  | cons c rest ih =>
    unfold segments
    split
    · exact cons_ne_nil _ _
    · cases found : segments (mode.after c rest.head?) rest with
      | nil => exact absurd found (ih _)
      | cons first others => exact cons_ne_nil _ _

theorem segments_cut : segments .code (';' :: rest) = [] :: segments .code rest := by
  rw [segments, if_pos ⟨rfl, rfl⟩]

theorem segments_keep {first : Str} {others : List Str} (keep : ¬(mode = .code ∧ c = ';'))
    (later : segments (mode.after c rest.head?) rest = first :: others) :
    segments mode (c :: rest) = (c :: first) :: others := by
  rw [segments, if_neg keep, later]

/-- A semicolon ahead is read like the end of the text. -/
theorem Mode.after_semicolon (mode : Mode) (c : Char) :
    mode.after c (some ';') = mode.after c none := by
  cases mode with
  | code | block => simp [Mode.after]
  | quoted q => cases q <;> rfl
  | _ => rfl

/-- What a segment shows to the reader at its first character: the next one, or its end. -/
theorem segments_head {first : Str} {others : List Str}
    (later : segments (mode.after c rest.head?) rest = first :: others) :
    mode.after c first.head? = mode.after c rest.head? ∧
      (first.head? = rest.head? ∨ first = []) := by
  cases rest with
  | nil =>
    injection later with empty _
    rw [← empty]
    exact ⟨rfl, .inl rfl⟩
  | cons d rest =>
    rw [segments] at later
    split at later
    · next cut =>
      injection later with empty _
      rw [← empty, head?_cons, cut.2]
      exact ⟨(Mode.after_semicolon mode c).symm, .inr rfl⟩
    · split at later
      · cases later
      · injection later with same _
        rw [← same]
        exact ⟨rfl, .inl rfl⟩

/-- The segments of a text with comments apart have their comments apart. -/
theorem apart_segments {text : Str} (h : apart mode text = true) :
    ∃ first others, segments mode text = first :: others ∧ apart mode first = true ∧
      ∀ segment ∈ others, apart .code segment = true := by
  induction text generalizing mode with
  | nil => exact ⟨[], [], rfl, rfl, fun _ member => by cases member⟩
  | cons c rest ih =>
    obtain ⟨noSlash, noStar, later⟩ := apart_cons.mp h
    by_cases cut : mode = .code ∧ c = ';'
    · obtain ⟨rfl, rfl⟩ := cut
      have after : Mode.after .code ';' rest.head? = .code := rfl
      rw [after] at later
      obtain ⟨first, others, found, apartFirst, apartOthers⟩ := ih later
      refine ⟨[], segments .code rest, segments_cut, rfl, ?_⟩
      intro segment member
      rw [found, mem_cons] at member
      obtain rfl | member := member
      · exact apartFirst
      · exact apartOthers segment member
    · obtain ⟨first, others, found, apartFirst, apartOthers⟩ := ih later
      refine ⟨c :: first, others, segments_keep cut found, ?_, apartOthers⟩
      obtain ⟨same, ahead⟩ := segments_head found
      rw [apart_cons, same]
      obtain ahead | rfl := ahead
      · rw [ahead]
        exact ⟨noSlash, noStar, apartFirst⟩
      · exact ⟨by simp, by simp, apartFirst⟩

end Dbx.Lib.TopLevel
