import Mathlib.Tactic.Simps.Basic
import Dbx.Source.RoutineBlocks

/-!
# The streaming statement splitter

Model of `SqlStatementSplitter` (`sql.rs:316-649`) and of the whole-text entry
points over it (`sql.rs:651-686`), with the psql control commands
(`sql.rs:1497-1559`) and the masking scanner `SqlScanner` (`sql.rs:1865-1942`).

One turn of the `while` loop is split in two: `branch` is the choice the loop body
makes at a character, and `takeBranch` is what it then does. `branch` is the only
place that looks ahead in the chunk. The loop index becomes the rest of the chunk
and a number of characters that the last turn consumed in advance.
-/
namespace Dbx.Source

open Dbx.Lib.Text

inductive PsqlControlCommand where
  | onErrorStop | clientDisplay
  deriving DecidableEq, Repr

def parseIgnorablePsqlControlCommand (line : Str) : Option PsqlControlCommand :=
  match splitWhitespace line with
  | [] => none
  | command :: parts =>
    if eqIgnoreAsciiCase command "\\timing".toList then
      match parts with
      | [] => some .clientDisplay
      | [value] =>
        if eqIgnoreAsciiCase value "on".toList || eqIgnoreAsciiCase value "off".toList then
          some .clientDisplay
        else none
      | _ => none
    else if !eqIgnoreAsciiCase command "\\set".toList then none
    else match parts with
      | [var, value] =>
        if toAsciiUppercase var == "ON_ERROR_STOP".toList then
          if ["on", "true", "1"].any (fun v => toAsciiLowercase value == v.toList) then
            some .onErrorStop
          else none
        else if toAsciiUppercase var == "VERBOSITY".toList then
          if ["default", "verbose", "terse", "sqlstate"].any
              (fun v => toAsciiLowercase value == v.toList) then
            some .clientDisplay
          else none
        else none
      | _ => none

structure SqlStatementWithControl where
  sql : Str
  stopOnError : Bool
  deriving DecidableEq, Repr

structure SqlStatementSplitter where
  buffer : Str := []
  inSingleQuote : Bool := false
  inDoubleQuote : Bool := false
  inBacktick : Bool := false
  inLineComment : Bool := false
  inBlockComment : Bool := false
  dollarQuoteTag : Option Str := none
  postgresDollarQuotedRoutine : Bool := false
  previous : Option Char := none
  pendingMysqlLineCommentDashes : Bool := false
  customDelimiter : Option Str := none
  stopOnError : Bool := false
  options : SqlDialectProfile := {}
  deriving DecidableEq, Repr

/-- A splitter after some work, with the statements the work produced. -/
abbrev Emitting := SqlStatementSplitter × List SqlStatementWithControl

/-- The branches of the loop body. -/
inductive Branch where
  | dollarClose (tag : Str)
  | dollarBody
  | lineCommentBody
  | blockCommentBody
  | pendingDashes
  | lineCommentOpen
  | blockCommentOpen
  | dollarOpen (tag : Str)
  | plain
  deriving DecidableEq, Repr

variable (s : SqlStatementSplitter)

namespace SqlStatementSplitter

def withOptions (options : SqlDialectProfile) : SqlStatementSplitter := { options := options }

def quoted : Bool := s.inSingleQuote || s.inDoubleQuote || s.inBacktick

def onDelimiterLine : Bool :=
  startsWithDelimiter (trimStart (lastLine s.buffer))

/-- A candidate statement is kept when it has something to execute. -/
def emit (statement : Str) : List SqlStatementWithControl :=
  if hasExecutableSqlWithOptions statement s.options then [⟨statement, s.stopOnError⟩] else []

/-- The state after a statement is taken from the buffer. -/
def clear : SqlStatementSplitter :=
  { s with buffer := [], postgresDollarQuotedRoutine := false, previous := none }

def pushCurrentStatement : Emitting :=
  ({ s.clear with pendingMysqlLineCommentDashes := false }, s.emit (trim s.buffer))

@[simps]
def pushChar (ch : Char) : SqlStatementSplitter :=
  { s with buffer := s.buffer ++ [ch], previous := some ch }

@[simp] theorem pushChar_quoted (ch : Char) : (s.pushChar ch).quoted = s.quoted := rfl

/-- Characters are pushed one by one, so `previous` ends as the last of them. -/
def pushText (text : Str) : SqlStatementSplitter :=
  text.foldl pushChar s

theorem pushText_eq (text : Str) : s.pushText text =
      { s with buffer := s.buffer ++ text, previous := text.getLast?.or s.previous } := by
  induction text generalizing s with
  | nil => simp [pushText]
  | cons ch text ih =>
    have step : s.pushText (ch :: text) = (s.pushChar ch).pushText text := rfl
    have last : text.getLast?.or (some ch) = (ch :: text).getLast?.or s.previous := by
      rw [List.getLast?_cons]
      cases text.getLast? <;> rfl
    rw [step, ih, pushChar_previous, last]
    simp

/-- The dollar-quote test of the loop body, the last one before `match ch`. -/
def dollarBranch (ch : Char) (rest : Str) : Branch :=
  match if s.options.supportsDollarQuotedStrings then dollarQuoteTagAt (ch :: rest) else none with
  | some tag => if s.customDelimiter.isNone && !s.onDelimiterLine then .dollarOpen tag else .plain
  | none => .plain

/-- The tests of the loop body before the dollar-quote test: comments, and what quotes mask. -/
def commentBranch (ch : Char) (next : Option Char) : Option Branch :=
  if s.inLineComment then some .lineCommentBody
  else if s.inBlockComment then some .blockCommentBody
  else if s.quoted then some .plain
  else if s.previous == some '-' && ch == '-'
      && s.options.requiresWhitespaceAfterLineCommentDashes && next.isNone then some .pendingDashes
  else if s.previous == some '-' && ch == '-' && dashDashStartsLineComment s.options next then
    some .lineCommentOpen
  else if s.previous == some '/' && ch == '*' then some .blockCommentOpen
  else if s.options.supportsHashLineComments && ch == '#' then some .lineCommentOpen
  else if ch == '/' && next == some '*' then some .blockCommentOpen
  else none

/-- The choice of the loop body at `ch`, with `rest` the part of the chunk after it. -/
def branch (s : SqlStatementSplitter) (ch : Char) (rest : Str) : Branch :=
  match s.dollarQuoteTag with
  | some tag => if tag.isPrefixOf (ch :: rest) then .dollarClose tag else .dollarBody
  | none =>
    match s.commentBranch ch rest.head? with
    | some branch => branch
    | none => s.dollarBranch ch rest

section

variable (tokenize : Tokenizer)

/-- `self.buffer.push(ch)` alone; `previous` is set at the end of the loop body. -/
def keep (ch : Char) : SqlStatementSplitter :=
  { s with buffer := s.buffer ++ [ch] }

/-- The semicolon arm of `match ch`. -/
def semicolon : Emitting :=
  if (s.options.supportsCustomDelimiterCommands && s.onDelimiterLine)
      || s.customDelimiter.isSome then
    (s.keep ';', [])
  else if s.options.supportsMysqlRoutineBlocks && startsWithMysqlRoutineBlock s.buffer then
    if mysqlRoutineBlockIsComplete (s.buffer ++ [';']) then s.pushCurrentStatement
    else (s.keep ';', [])
  else if s.options.supportsOraclePlsqlBlocks && !s.postgresDollarQuotedRoutine
      && startsWithOraclePlsqlBlock tokenize s.buffer then
    if oraclePlsqlBlockIsComplete tokenize (s.buffer ++ [';']) then
      (s.keep ';').pushCurrentStatement
    else (s.keep ';', [])
  else if s.options.supportsHanaDoBlocks && startsWithHanaDoBlock tokenize s.buffer then
    if hanaDoBlockIsComplete tokenize (s.buffer ++ [';']) then (s.keep ';').pushCurrentStatement
    else (s.keep ';', [])
  else s.pushCurrentStatement

/-- The `match ch` of the loop body. -/
def matchChar (ch : Char) : Emitting :=
  if ch == '\'' && !s.inDoubleQuote && !s.inBacktick && !hasOddTrailingBackslashes s.buffer then
    ({ s.keep ch with inSingleQuote := !s.inSingleQuote }, [])
  else if ch == '"' && !s.inSingleQuote && !s.inBacktick
      && !hasOddTrailingBackslashes s.buffer then
    ({ s.keep ch with inDoubleQuote := !s.inDoubleQuote }, [])
  else if ch == '\x60' && !s.inSingleQuote && !s.inDoubleQuote then
    ({ s.keep ch with inBacktick := !s.inBacktick }, [])
  else if ch == ';' && !s.quoted then s.semicolon tokenize
  else (s.keep ch, [])

/-- The check of the buffer's end against the custom delimiter. -/
def checkDelimiter (ch : Char) : Emitting :=
  match s.customDelimiter with
  | some delim =>
    if delim.isSuffixOf s.buffer then
      let r := { s with buffer := s.buffer.take (s.buffer.length - delim.length) }.pushCurrentStatement
      ({ r.1 with previous := some ch }, r.2)
    else ({ s with previous := some ch }, [])
  | none => ({ s with previous := some ch }, [])

def psqlCommand (line : Str) : Option PsqlControlCommand :=
  if s.options.supportsPsqlControlCommands then parseIgnorablePsqlControlCommand line else none

def delimiterCommand (line : Str) : Option Str :=
  if s.options.supportsCustomDelimiterCommands then parseDelimiterCommand line else none

/-- What an unquoted line feed does; `none` when the line is not a command.
The buffer ends with the line feed. -/
def lineCommand : Option Emitting :=
  let head := beforeLastLine s.buffer.dropLast
  let line := trim (lastLine s.buffer.dropLast)
  match s.psqlCommand line with
  | some command =>
    some ({ s with
      buffer := head
      stopOnError := s.stopOnError || command == .onErrorStop
      previous := head.getLast? }, [])
  | none =>
    if s.options.supportsSlashLineBlockDelimiter && line == ['/'] then
      some (s.clear, s.emit (trim head))
    else match s.delimiterCommand line with
      | some newDelim =>
        some ({ s.clear with
          customDelimiter := if newDelim == [';'] then none else some newDelim },
          if head.isEmpty then [] else s.emit (trim head))
      | none => none

/-- The three kinds of command line. -/
theorem lineCommand_cases {s : SqlStatementSplitter} {r : Emitting} (h : s.lineCommand = some r) :
    let head := beforeLastLine s.buffer.dropLast
    let line := trim (lastLine s.buffer.dropLast)
    (∃ command, s.psqlCommand line = some command ∧
      r = ({ s with
        buffer := head
        stopOnError := s.stopOnError || command == .onErrorStop
        previous := head.getLast? }, [])) ∨
    (s.options.supportsSlashLineBlockDelimiter = true ∧ line = ['/'] ∧
      r = (s.clear, s.emit (trim head))) ∨
    ∃ newDelim, s.delimiterCommand line = some newDelim ∧
      r = ({ s.clear with
          customDelimiter := if newDelim == [';'] then none else some newDelim },
          if head.isEmpty then [] else s.emit (trim head)) := by
  simp only [lineCommand] at h
  split at h
  next command psql => exact .inl ⟨command, psql, (Option.some.inj h).symm⟩
  next =>
    split at h
    next slash =>
      simp only [Bool.and_eq_true, beq_iff_eq] at slash
      exact .inr (.inl ⟨slash.1, slash.2, (Option.some.inj h).symm⟩)
    next =>
      split at h
      next newDelim delimiter => exact .inr (.inr ⟨newDelim, delimiter, (Option.some.inj h).symm⟩)
      next => cases h

/-- The part of the loop body from `match ch` on. -/
def plainChar (ch : Char) : Emitting :=
  let (s', statements) := s.matchChar tokenize ch
  if s'.quoted then ({ s' with previous := some ch }, statements)
  else
    match if ch == '\n' then s'.lineCommand else none with
    | some (s'', more) => (s'', statements ++ more)
    | none =>
      let (s'', more) := s'.checkDelimiter ch
      (s'', statements ++ more)

/-- One turn of the loop: the new state, the statements, and how many characters after `ch`
the turn has consumed as well. -/
def takeBranch (ch : Char) : Branch → Emitting × Nat
  | .dollarClose tag => (({ s.pushText tag with dollarQuoteTag := none }, []), tag.length - 1)
  | .dollarBody => ((s.pushChar ch, []), 0)
  | .lineCommentBody => (({ s.pushChar ch with inLineComment := ch != '\n' }, []), 0)
  | .blockCommentBody =>
    (({ s.pushChar ch with inBlockComment := !(s.previous == some '*' && ch == '/') }, []), 0)
  | .pendingDashes => (({ s.pushChar ch with pendingMysqlLineCommentDashes := true }, []), 0)
  | .lineCommentOpen => (({ s.pushChar ch with inLineComment := true }, []), 0)
  | .blockCommentOpen => (({ s.pushChar ch with inBlockComment := true }, []), 0)
  | .dollarOpen tag =>
    (({ s.pushText tag with
        dollarQuoteTag := some tag
        postgresDollarQuotedRoutine := s.postgresDollarQuotedRoutine ||
          (s.options.supportsPostgresDollarQuotedRoutines
            && startsWithPostgresDollarQuotedRoutinePrefix tokenize s.buffer) }, []),
      tag.length - 1)
  | .plain => (s.plainChar tokenize ch, 0)

/-- The `while` loop over a chunk; the first `skip` characters are already consumed. -/
def scan (s : SqlStatementSplitter) : (skip : Nat) → Str → Emitting
  | _, [] => (s, [])
  | skip + 1, _ :: rest => scan s skip rest
  | 0, ch :: rest =>
    let r := s.takeBranch tokenize ch (s.branch ch rest)
    let r' := scan r.1.1 r.2 rest
    (r'.1, r.1.2 ++ r'.2)

/-- Settles, at the first character of a chunk, a `--` that ended the chunk before. -/
def resolvePending (first : Option Char) : SqlStatementSplitter :=
  if s.pendingMysqlLineCommentDashes then
    match first with
    | some first =>
      { s with
        inLineComment := dashDashStartsLineComment s.options (some first)
        pendingMysqlLineCommentDashes := false }
    | none => s
  else s

def pushChunkWithControl (chunk : Str) : Emitting :=
  (s.resolvePending chunk.head?).scan tokenize 0 chunk

def pushChunk (chunk : Str) : SqlStatementSplitter × List Str :=
  let r := s.pushChunkWithControl tokenize chunk
  (r.1, r.2.map (·.sql))

end

/-- The psql part of `finish_with_control`. -/
def finishPsql : SqlStatementSplitter :=
  if s.options.supportsPsqlControlCommands then
    match parseIgnorablePsqlControlCommand (trim (lastLine (trim s.buffer))) with
    | some command =>
      { s with
        buffer := beforeLastLine s.buffer
        stopOnError := s.stopOnError || command == .onErrorStop }
    | none => s
  else s

def finishWithControl : List SqlStatementWithControl :=
  let s := s.finishPsql
  let trimmed := trim s.buffer
  let line := trim (lastLine trimmed)
  let before := trim ((beforeLastNewline trimmed).getD [])
  if s.options.supportsCustomDelimiterCommands && (parseDelimiterCommand line).isSome then
    s.emit before
  else if s.options.supportsSlashLineBlockDelimiter && line == ['/'] then s.emit before
  else match s.customDelimiter with
    | some delim =>
      if delim.isSuffixOf s.buffer then
        s.emit (trim (s.buffer.take (s.buffer.length - delim.length)))
      else s.emit trimmed
    | none => s.emit trimmed

def finish : List Str := s.finishWithControl.map (·.sql)

end SqlStatementSplitter

/-- Pushing the chunks one by one and finishing, as the SQL file reader does. -/
def SqlStatementSplitter.feed (tokenize : Tokenizer) (s : SqlStatementSplitter) :
    List Str → List SqlStatementWithControl
  | [] => s.finishWithControl
  | chunk :: chunks =>
    let r := s.pushChunkWithControl tokenize chunk
    r.2 ++ feed tokenize r.1 chunks

/-- The statements of a text that arrives in chunks. -/
def splitSqlChunks (tokenize : Tokenizer) (options : SqlDialectProfile) (chunks : List Str) :
    List Str :=
  ((SqlStatementSplitter.withOptions options).feed tokenize chunks).map (·.sql)

/-- Splitting a whole text in one chunk. -/
def splitSqlStatementsWithOptions (tokenize : Tokenizer) (sql : Str)
    (options : SqlDialectProfile) : List Str :=
  let r := (SqlStatementSplitter.withOptions options).pushChunk tokenize sql
  r.2 ++ r.1.finish

/-! ## Scripts with psql control commands -/

/-- The scanner that tells code from quoted text and comments (`sql.rs:1865-1942`). -/
structure SqlScanner where
  profile : SqlDialectProfile := {}
  inSingleQuote : Bool := false
  inDoubleQuote : Bool := false
  inBacktick : Bool := false
  inLineComment : Bool := false
  inBlockComment : Bool := false
  dollarQuoteTag : Option Str := none
  previous : Option Char := none
  deriving DecidableEq, Repr

namespace SqlScanner

def openMask (s : SqlScanner) (ch : Char) (rest : Str) : SqlScanner :=
  if s.inSingleQuote || s.inDoubleQuote || s.inBacktick then s
  else if ch == '-' && rest.head? == some '-' || s.profile.supportsHashLineComments && ch == '#' then
    { s with inLineComment := true }
  else if ch == '/' && rest.head? == some '*' then { s with inBlockComment := true }
  else if s.profile.supportsDollarQuotedStrings then
    { s with dollarQuoteTag := dollarQuoteTagAtStr (ch :: rest) }
  else s

def toggleQuote (s : SqlScanner) (ch : Char) : SqlScanner :=
  if ch == '\'' && !s.inDoubleQuote && !s.inBacktick && s.previous != some '\\' then
    { s with inSingleQuote := !s.inSingleQuote }
  else if ch == '"' && !s.inSingleQuote && !s.inBacktick && s.previous != some '\\' then
    { s with inDoubleQuote := !s.inDoubleQuote }
  else if ch == '\x60' && !s.inSingleQuote && !s.inDoubleQuote then
    { s with inBacktick := !s.inBacktick }
  else s

/-- One character; `rest` is the text after it. -/
def step (s : SqlScanner) (ch : Char) (rest : Str) : SqlScanner :=
  let next :=
    match s.dollarQuoteTag with
    | some tag => if tag.isPrefixOf (ch :: rest) then { s with dollarQuoteTag := none } else s
    | none =>
      if s.inLineComment then { s with inLineComment := ch != '\n' }
      else if s.inBlockComment then
        { s with inBlockComment := !(s.previous == some '*' && ch == '/') }
      else (s.openMask ch rest).toggleQuote ch
  { next with previous := some ch }

def isMasked (s : SqlScanner) : Bool :=
  s.inSingleQuote || s.inDoubleQuote || s.inBacktick || s.inLineComment || s.inBlockComment ||
    s.dollarQuoteTag.isSome

/-- Every character of a segment, with `after` following the segment in the text. -/
def steps (s : SqlScanner) (after : Str) : Str → SqlScanner
  | [] => s
  | ch :: rest => (s.step ch (rest ++ after)).steps after rest

end SqlScanner

/-- Blanks the control command lines out, segment by segment. -/
def preprocessSegments (scanner : SqlScanner) : List Str → Str × Bool
  | [] => ([], false)
  | segment :: segments =>
    let after := segments.flatten
    let line := if segment.getLast? == some '\n' then segment.dropLast else segment
    let command :=
      if scanner.isMasked then none else parseIgnorablePsqlControlCommand (trim line)
    match command with
    | some command =>
      let blanked := line.map fun ch => if isWhitespace ch then ch else ' '
      let closed := segment.getLast? == some '\n'
      let scanner := if closed then scanner.step '\n' after else scanner
      let r := preprocessSegments scanner segments
      (blanked ++ (if closed then ['\n'] else []) ++ r.1, command == .onErrorStop || r.2)
    | none =>
      let r := preprocessSegments (scanner.steps after segment) segments
      (segment ++ r.1, r.2)

def preprocessPsqlControlCommands (sql : Str) (profile : SqlDialectProfile) : Str × Bool :=
  preprocessSegments { profile := profile } (splitInclusive '\n' sql)

structure SqlExecutionPlan where
  statements : List Str
  stopOnError : Bool
  deriving DecidableEq, Repr

def sqlExecutionPlanForDatabase (tokenize : Tokenizer) (sql : Str) (dbType : DatabaseType) :
    SqlExecutionPlan :=
  let options := SqlDialectProfile.forDatabaseType dbType
  if !options.supportsPsqlControlCommands then
    { statements := splitSqlStatementsWithOptions tokenize sql options, stopOnError := false }
  else
    let (sql, stopOnError) := preprocessPsqlControlCommands sql options
    let parsingOptions := { options with supportsPsqlControlCommands := false }
    { statements := splitSqlStatementsWithOptions tokenize sql parsingOptions
      stopOnError := stopOnError }

def splitSqlStatementsForDatabase (tokenize : Tokenizer) (sql : Str) (dbType : DatabaseType) :
    List Str :=
  (sqlExecutionPlanForDatabase tokenize sql dbType).statements

end Dbx.Source
