import Dbx.Lib.Text
import Dbx.Source.DatabaseType

/-!
# Dialect profiles and leading SQL

Model of `SqlDialectProfile` and of the functions of `crates/dbx-core/src/sql.rs`
that look at the head of a statement: comment openers, `DELIMITER` lines, dollar
tags, and the executable part of a statement (`sql.rs:108-314, 1485-1495,
2173-2218, 2634-2752`), with the TDSQL directives of `db/tdsql_mysql.rs:18-29`.

The two flags that only the SQL Server batch commands read
(`supports_go_batch_separator`, `keeps_sqlserver_module_batch_at_cursor`) are kept
as data; no function here reads them.
-/
namespace Dbx.Source

open Dbx.Lib.Text

structure SqlDialectProfile where
  supportsHashLineComments : Bool := false
  supportsOraclePlsqlBlocks : Bool := false
  supportsSlashLineBlockDelimiter : Bool := false
  supportsCustomDelimiterCommands : Bool := true
  supportsMysqlRoutineBlocks : Bool := false
  supportsDollarQuotedStrings : Bool := true
  supportsPostgresDollarQuotedRoutines : Bool := false
  supportsHanaDoBlocks : Bool := false
  supportsGoBatchSeparator : Bool := false
  keepsSqlserverModuleBatchAtCursor : Bool := false
  preservesTdsqlLeadingDirectives : Bool := false
  requiresWhitespaceAfterLineCommentDashes : Bool := false
  supportsPsqlControlCommands : Bool := false
  deriving DecidableEq, Repr

namespace SqlDialectProfile

def mysqlCompatible : SqlDialectProfile :=
  { supportsHashLineComments := true
    supportsMysqlRoutineBlocks := true
    requiresWhitespaceAfterLineCommentDashes := true }

def oracleLike : SqlDialectProfile :=
  { supportsOraclePlsqlBlocks := true, supportsSlashLineBlockDelimiter := true }

def gaussdb : SqlDialectProfile :=
  { oracleLike with
    supportsPostgresDollarQuotedRoutines := true
    supportsPsqlControlCommands := true }

def sqlServer : SqlDialectProfile :=
  { supportsGoBatchSeparator := true, keepsSqlserverModuleBatchAtCursor := true }

def sapHana : SqlDialectProfile := { supportsHanaDoBlocks := true }

def forDatabaseType (dbType : DatabaseType) : SqlDialectProfile :=
  if dbType = .mysql then { mysqlCompatible with preservesTdsqlLeadingDirectives := true }
  else if dbType = .gaussdb then gaussdb
  else if dbType.isOracleLike then oracleLike
  else if dbType = .sqlServer then sqlServer
  else if dbType.isMysqlCompatible then mysqlCompatible
  else if dbType = .sapHana then sapHana
  else {}

end SqlDialectProfile

/-- Whether a `--` opens a line comment, given the character after the dashes. -/
def dashDashStartsLineComment (profile : SqlDialectProfile) (charAfterDashes : Option Char) :
    Bool :=
  if !profile.requiresWhitespaceAfterLineCommentDashes then true
  else match charAfterDashes with
    | none => true
    | some ch => isWhitespace ch || isControl ch

def hasOddTrailingBackslashes (sql : Str) : Bool :=
  (sql.rtakeWhile (· == '\\')).length % 2 == 1

/-- The delimiter a `DELIMITER x` line announces. -/
def parseDelimiterCommand (line : Str) : Option Str :=
  if line.length > 10 && (eqIgnoreAsciiCase (line.take 10) "delimiter ".toList
      || eqIgnoreAsciiCase (line.take 10) "delimiter\t".toList) then
    let rest := trim (line.drop 10)
    if rest.isEmpty then none else some rest
  else none

/-- Whether a (trimmed) line starts with the word `delimiter`. -/
def startsWithDelimiter (line : Str) : Bool :=
  9 ≤ line.length && eqIgnoreAsciiCase (line.take 9) "delimiter".toList

/-- The rest of a `$tag$` after its first name character, up to the closing `$`. -/
def dollarQuoteTagTail : Str → Option Str
  | [] => none
  | ch :: rest =>
    if ch == '$' then some ['$']
    else if !ch.isAlphanum && ch != '_' then none
    else (dollarQuoteTagTail rest).map (ch :: ·)

/-- The dollar-quote tag that opens at the head of the text. -/
def dollarQuoteTagAt : Str → Option Str
  | '$' :: ch :: rest =>
    if ch == '$' then some ['$', '$']
    else if ch.isAlpha || ch == '_' then
      (dollarQuoteTagTail rest).map (fun tail => '$' :: ch :: tail)
    else none
  | _ => none

/-- The `find('$')` search of `dollar_quote_tag_at_str`, over the name characters it allows. -/
def dollarQuoteTagStrTail : Str → Option Str
  | [] => none
  | ch :: rest =>
    if ch == '$' then some ['$']
    else if ch == '_' || ch.isAlphanum then (dollarQuoteTagStrTail rest).map (ch :: ·)
    else none

/-- The range splitter's tag reader; unlike `dollarQuoteTagAt` it lets a name start with a digit. -/
def dollarQuoteTagAtStr : Str → Option Str
  | '$' :: rest => (dollarQuoteTagStrTail rest).map ('$' :: ·)
  | _ => none

/-- Whether the text starts with a MySQL `/*!` or MariaDB `/*M!` comment. -/
def isMysqlExecutableCommentStart : Str → Bool
  | '/' :: '*' :: '!' :: _ => true
  | '/' :: '*' :: 'M' :: '!' :: _ => true
  | _ => false

/-- What a scan over leading comments is inside of. -/
inductive LeadingMode where
  | code
  | lineComment
  /-- The star of the opener is still to be read. -/
  | blockOpen
  | blockComment
  deriving DecidableEq, Repr

def leadingExecutableSqlFrom (profile : SqlDialectProfile) : LeadingMode → Str → Str
  | _, [] => []
  | .code, ch :: rest =>
    if isAsciiWhitespace ch then leadingExecutableSqlFrom profile .code rest
    else if ch == '-' && rest.head? == some '-' then
      leadingExecutableSqlFrom profile .lineComment rest
    else if profile.supportsHashLineComments && ch == '#' then
      leadingExecutableSqlFrom profile .lineComment rest
    else if ch == '/' && rest.head? == some '*' then
      if isMysqlExecutableCommentStart (ch :: rest) then ch :: rest
      else leadingExecutableSqlFrom profile .blockOpen rest
    else ch :: rest
  | .lineComment, ch :: rest =>
    if ch == '\n' then leadingExecutableSqlFrom profile .code rest
    else leadingExecutableSqlFrom profile .lineComment rest
  | .blockOpen, _ :: rest => leadingExecutableSqlFrom profile .blockComment rest
  | .blockComment, '*' :: '/' :: rest => leadingExecutableSqlFrom profile .code rest
  | .blockComment, _ :: rest => leadingExecutableSqlFrom profile .blockComment rest

/-- The statement without its leading whitespace and comments. -/
def leadingExecutableSqlWithOptions (sql : Str) (profile : SqlDialectProfile) : Str :=
  leadingExecutableSqlFrom profile .code sql

/-- `has_executable_sql_with_options` from a given comment state. -/
def hasExecutableSqlFrom (profile : SqlDialectProfile) :
    (inLineComment inBlockComment : Bool) → (previous : Option Char) → Str → Bool
  | _, _, _, [] => false
  | inLineComment, inBlockComment, previous, ch :: rest =>
    if inLineComment then
      hasExecutableSqlFrom profile (ch != '\n') inBlockComment (some ch) rest
    else if inBlockComment then
      hasExecutableSqlFrom profile false (!(previous == some '*' && ch == '/')) (some ch) rest
    else if ch == '-' && rest.head? == some '-' then
      hasExecutableSqlFrom profile true false (some ch) rest
    else if profile.supportsHashLineComments && ch == '#' then
      hasExecutableSqlFrom profile true false (some ch) rest
    else if ch == '/' && rest.head? == some '*' then
      if isMysqlExecutableCommentStart (ch :: rest) then true
      else hasExecutableSqlFrom profile false true (some ch) rest
    else if !isWhitespace ch then true
    else hasExecutableSqlFrom profile false false (some ch) rest

def hasExecutableSqlWithOptions (statement : Str) (profile : SqlDialectProfile) : Bool :=
  hasExecutableSqlFrom profile false false none statement

/-- Where the kept directives start in the text before the executable part
(`leading_directive_start`), as the kept suffix of that text. -/
def leadingDirective (before : Str) : Option Str :=
  let linePrefix := before.rtakeWhile (fun ch => ch != '\r' && ch != '\n')
  let trimmedLineStart := trimStart linePrefix
  if "/*".toList.isPrefixOf trimmedLineStart && "*/".toList.isSuffixOf (trimEnd trimmedLineStart)
  then some trimmedLineStart
  else
    let trimmed := trimEnd before
    if "/*proxy*/".toList.isSuffixOf trimmed then some (before.drop (trimmed.length - 9))
    else none

/-- The start and the end of the executable part, in characters. -/
def executableSqlBounds (statement : Str) (profile : SqlDialectProfile) : Option (Nat × Nat) :=
  let trimmed := trimEnd statement
  let executable := leadingExecutableSqlWithOptions trimmed profile
  if executable.isEmpty then none
  else
    let executableStart := trimmed.length - executable.length
    let start :=
      if profile.preservesTdsqlLeadingDirectives then
        match leadingDirective (trimmed.take executableStart) with
        | some kept => executableStart - kept.length
        | none => executableStart
      else executableStart
    some (start, trimmed.length)

end Dbx.Source
