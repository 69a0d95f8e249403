import Dbx.Lib.Text

/-!
# Comments and literals of SQL dialects

A lexer of comments, string literals and quoted identifiers whose rules are a record, so
that one definition covers the dialects of different servers. `lexFrom` gives the
characters that are read as code and marks the places of quoted characters; comments leave a
blank. `Rules.words` are the words of the text in which the marks are blanks.

A second scanner of the same text may show more of it than the lexer, as long as what it
shows in addition is fenced off from code by separators (`Covers`). A word of the code is
then a word of what the scanner shows (`Covers.exists_word`).
-/
namespace Dbx.Lib.Lexing

open Dbx.Lib.Text List

/-- Quotes in which a doubled quote stands for one. -/
inductive Quote where
  | single | double | back
  deriving DecidableEq, Repr

def Quote.char : Quote → Char
  | single => '\''
  | double => '"'
  | back => '\x60'

/-- The rules of a dialect. -/
structure Rules where
  /-- The characters of words: letters, digits, underscores and what else the dialect has. -/
  identChar : Char → Bool
  identChar_of_word : ∀ c : Char, (c.isAlphanum || c == '_') = true → identChar c = true
  identChar_blank : identChar ' ' = false
  /-- `#` starts a comment. -/
  hashComments : Bool
  /-- `--` starts a comment only before a blank, a control character or the end. -/
  dashNeedsBlank : Bool
  nestedComments : Bool
  /-- A carriage return alone ends a line comment. -/
  returnEndsLine : Bool
  /-- The body of a comment that starts with an exclamation mark is code. -/
  executableComments : Bool
  /-- A backslash escapes the next character in single and double quotes. -/
  backslashEscapes : Bool
  /-- A backslash escapes the next character in a literal with the letter E before it. -/
  escapeStrings : Bool
  /-- A literal with the letter Q before it chooses its own delimiters. -/
  alternativeQuotes : Bool
  backticks : Bool
  brackets : Bool
  dollarQuotes : Bool
  /-- A word may start right behind the digits of a number. -/
  numbersEndAtLetters : Bool

inductive Mode where
  | code
  | line
  | block (depth : Nat)
  | quoted (quote : Quote) (escapes : Bool)
  | escaped (quote : Quote)
  /-- `doubled` stands before the second bracket of a doubled one. -/
  | bracket (doubled : Bool)
  /-- In a literal between two `tag`s, of whose first one `opening` characters are left. -/
  | dollar (tag : Str) (opening : Nat) (seen : Str)
  | alternativeOpen
  | alternative (closing : Char)
  /-- One more character of a delimiter. -/
  | silent (next : Mode)
  deriving DecidableEq, Repr

/-- A character that is code, or the mark of a quoted one. -/
abbrev Piece := Option Char

structure Step where
  emit : List Piece
  next : Mode

namespace Rules

variable (rules : Rules)

/-- What may follow `--` in a comment. -/
def opensComment (next : Option Char) : Bool :=
  !rules.dashNeedsBlank || next.all fun c => isWhitespace c || isControl c

/-- The rest of `/*` starts a comment that is executed. -/
def isExecutable : Str → Bool
  | '*' :: '!' :: _ => rules.executableComments
  | '*' :: 'M' :: '!' :: _ => rules.executableComments
  | _ => false

/-- The tag of a dollar-quoted literal, by the text behind its first dollar sign. -/
def dollarTag (rest : Str) : Option Str :=
  let name := rest.takeWhile fun c => rules.identChar c && c != '$'
  if (rest.drop name.length).head? == some '$' && !name.head?.any Char.isDigit then
    some ('$' :: name ++ ['$'])
  else none

/-- The letters right before a literal, in lower case. -/
def lettersOf (word : Str) : Str :=
  (if rules.numbersEndAtLetters then word.dropWhile Char.isDigit else word).map Char.toLower

def isEscapeLetter (word : Str) : Bool := rules.escapeStrings && rules.lettersOf word == ['e']

def isQuoteLetter (word : Str) : Bool :=
  rules.alternativeQuotes &&
    (rules.lettersOf word == ['q'] || rules.lettersOf word == ['n', 'q'])

def alternativeClosing : Char → Char
  | '[' => ']'
  | '(' => ')'
  | '<' => '>'
  | '\x7b' => '\x7d'
  | c => c

/-- A character of code; `word` is the word that it may continue. -/
def codeStep (word : Str) (ch : Char) (rest : Str) : Step :=
  if ch == '-' && rest.head? == some '-' && rules.opensComment rest.tail.head? then
    ⟨[], .silent .line⟩
  else if ch == '#' && rules.hashComments then ⟨[], .line⟩
  else if ch == '/' && rest.head? == some '*' && !rules.isExecutable rest then
    ⟨[], .silent (.block 0)⟩
  else if ch == '\'' then
    if rules.isQuoteLetter word then ⟨[none], .alternativeOpen⟩
    else ⟨[none], .quoted .single (rules.backslashEscapes || rules.isEscapeLetter word)⟩
  else if ch == '"' then ⟨[none], .quoted .double rules.backslashEscapes⟩
  else if ch == '\x60' && rules.backticks then ⟨[none], .quoted .back false⟩
  else if ch == '[' && rules.brackets then ⟨[none], .bracket false⟩
  else if ch == '$' && rules.dollarQuotes && word.isEmpty then
    match rules.dollarTag rest with
    | some tag => ⟨[none], .dollar tag (tag.length - 1) []⟩
    | none => ⟨[some ch], .code⟩
  else ⟨[some ch], .code⟩

def step (mode : Mode) (word : Str) (ch : Char) (rest : Str) : Step :=
  match mode with
  | .code => rules.codeStep word ch rest
  | .line =>
    if ch == '\n' || rules.returnEndsLine && ch == '\r' && rest.head? != some '\n' then
      ⟨[some ' '], .code⟩
    else ⟨[], .line⟩
  | .block depth =>
    if ch == '*' && rest.head? == some '/' then
      match depth with
      | 0 => ⟨[some ' '], .silent .code⟩
      | depth + 1 => ⟨[], .silent (.block depth)⟩
    else if rules.nestedComments && ch == '/' && rest.head? == some '*' then
      ⟨[], .silent (.block (depth + 1))⟩
    else ⟨[], .block depth⟩
  | .quoted quote escapes =>
    if ch == quote.char then
      if rest.head? == some quote.char then ⟨[none], .silent (.quoted quote escapes)⟩
      else ⟨[none], .code⟩
    else if escapes && ch == '\\' then ⟨[none], .escaped quote⟩
    else ⟨[none], .quoted quote escapes⟩
  | .escaped quote => ⟨[none], .quoted quote true⟩
  | .bracket true => ⟨[none], .bracket false⟩
  | .bracket false =>
    if ch == ']' then ⟨[none], if rest.head? == some ']' then .bracket true else .code⟩
    else ⟨[none], .bracket false⟩
  | .dollar tag (opening + 1) seen => ⟨[none], .dollar tag opening seen⟩
  | .dollar tag 0 seen =>
    if ch == '$' && tag.isSuffixOf (seen ++ ['$']) then ⟨[none], .code⟩
    else ⟨[none], .dollar tag 0 (seen ++ [ch])⟩
  | .alternativeOpen => ⟨[none], .alternative (alternativeClosing ch)⟩
  | .alternative closing =>
    if ch == closing && rest.head? == some '\'' then ⟨[none], .silent .code⟩
    else ⟨[none], .alternative closing⟩
  | .silent next => ⟨[], next⟩

def nextWord (word : Str) : List Piece → Str
  | [some c] => if rules.identChar c then word ++ [c] else []
  | _ => []

def lexFrom (mode : Mode) (word : Str) : Str → List Piece
  | [] => []
  | ch :: rest =>
    let step := rules.step mode word ch rest
    step.emit ++ lexFrom step.next (rules.nextWord word step.emit) rest

def lex (text : Str) : List Piece := rules.lexFrom .code [] text

/-- The words of a text that was lexed, in lower case and without the digits before them
where these are numbers. -/
def words (text : Str) : List Str := (wordsBy rules.identChar text).map rules.lettersOf

end Rules

def isBlank (piece : Piece) : Bool := piece.any isWhitespace

/-- The text in which quoted characters are blanks. -/
def shown (pieces : List Piece) : Str := pieces.map fun piece => piece.getD ' '

@[simp] theorem shown_nil : shown [] = [] := rfl

@[simp] theorem shown_append (front back : List Piece) :
    shown (front ++ back) = shown front ++ shown back := map_append

/-! ## Texts that show more -/

/-- The second text shows what the first one shows, and more in the places where the first
one has blanks, in stretches that begin and end with separators. The flag tells that such a
stretch has begun. -/
inductive Covers (separator : Char → Bool) : Bool → Str → Str → Prop where
  | nil (inside : Bool) : Covers separator inside [] []
  | same (c : Char) {less more : Str} (rest : Covers separator false less more) :
      Covers separator false (c :: less) (c :: more)
  | opens {c : Char} (fence : separator c = true) {less more : Str}
      (rest : Covers separator true less more) : Covers separator false (' ' :: less) (c :: more)
  | inside (c : Char) {less more : Str} (rest : Covers separator true less more) :
      Covers separator true (' ' :: less) (c :: more)
  | closes {c : Char} (fence : separator c = true) {less more : Str}
      (rest : Covers separator false less more) : Covers separator true (' ' :: less) (c :: more)

namespace Covers

variable {separator : Char → Bool}

/-- Text without blanks is shown by both. -/
theorem of_append {inside : Bool} {found after more : Str} (nonempty : found ≠ [])
    (noBlank : ' ' ∉ found) (h : Covers separator inside (found ++ after) more) :
    ∃ after', more = found ++ after' ∧ Covers separator false after after' := by
  induction found generalizing inside more with
  | nil => exact absurd rfl nonempty
  | cons c found ih =>
    rw [mem_cons, not_or] at noBlank
    cases h with
    | same _ rest =>
      cases found with
      | nil => exact ⟨_, rfl, rest⟩
      | cons d found =>
        obtain ⟨after', rfl, covers⟩ := ih (by simp) noBlank.2 rest
        exact ⟨after', rfl, covers⟩
    | opens | inside | closes => exact absurd rfl noBlank.1

/-- Text without blanks between characters of a kind that has all separators stands between
characters of this kind in both. -/
theorem exists_word (bounds : Char → Bool) (fences : ∀ c, separator c = true → bounds c = true)
    {inside : Bool} {before found after more : Str} (nonempty : found ≠ [])
    (noBlank : ' ' ∉ found) (left : before.getLast?.all bounds = true)
    (right : after.head?.all bounds = true)
    (h : Covers separator inside (before ++ (found ++ after)) more) :
    ∃ before' after', more = before' ++ (found ++ after') ∧ before'.length = before.length ∧
      before'.getLast?.all bounds = true ∧ after'.head?.all bounds = true := by
  induction before generalizing inside more with
  | nil =>
    obtain ⟨after', rfl, covers⟩ := of_append nonempty noBlank h
    refine ⟨[], after', rfl, rfl, rfl, ?_⟩
    cases covers with
    | nil => rfl
    | same c _ => exact right
    | opens fence _ => exact fences _ fence
  | cons c before ih =>
    have tail : before.getLast?.all bounds = true := by
      cases before with
      | nil => rfl
      | cons d before => simpa [getLast?_cons_cons] using left
    -- The last character before the word keeps its kind.
    have step : ∀ (d : Char) {next : Bool} {more' : Str},
        Covers separator next (before ++ (found ++ after)) more' →
        (before = [] → bounds d = true) →
        ∃ before' after', d :: more' = before' ++ (found ++ after') ∧
          before'.length = (c :: before).length ∧ before'.getLast?.all bounds = true ∧
          after'.head?.all bounds = true := by
      intro d next more' covers last
      obtain ⟨before', after', rfl, length, leftBound, rightBound⟩ := ih tail covers
      refine ⟨d :: before', after', rfl, by simp [length], ?_, rightBound⟩
      cases before' with
      | nil =>
        have empty : before = [] := eq_nil_of_length_eq_zero length.symm
        simpa using last empty
      | cons e before' => simpa [getLast?_cons_cons] using leftBound
    have notBlank : before = [] → ¬ Covers separator true (before ++ (found ++ after)) more.tail := by
      intro empty covers
      subst empty
      cases found with
      | nil => exact nonempty rfl
      | cons e found =>
        generalize more.tail = rest at covers
        cases covers with
        | inside | closes => exact noBlank (mem_cons_self ..)
    cases h with
    | same _ rest =>
      apply step c rest
      intro empty
      subst empty
      simpa using left
    | opens fence rest => exact step _ rest fun empty => absurd rest (notBlank empty)
    | inside d rest => exact step d rest fun empty => absurd rest (notBlank empty)
    | closes fence rest => exact step _ rest fun _ => fences _ fence

end Covers

end Dbx.Lib.Lexing
