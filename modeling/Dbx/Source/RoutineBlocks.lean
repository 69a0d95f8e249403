import Dbx.Source.SqlDialectProfile

/-!
# Routine blocks

The recognisers that keep a semicolon inside a routine body from ending the
statement: MySQL routines (`sql.rs:1239-1483`), Oracle PL/SQL objects and HANA
`DO` blocks (`sql.rs:2277-2628`).

The Oracle recognisers read the tokens of the `sqlparser` tokenizer, which is
third-party code: it is the parameter `Tokenizer`. Its results only enter through
`fromSqlparserToken`, as in the source.
-/
namespace Dbx.Source

open Dbx.Lib.Text

/-- The `sqlparser` dialects whose tokenizer or parser the modelled code calls. -/
inductive SqlparserDialect where
  | oracle | postgreSql | msSql | mySql | sqlite | clickHouse | duckDb | generic
  deriving DecidableEq, Repr

/-- A `sqlparser` token, as far as the code looks at it. -/
inductive Token where
  | word (value : Str) (quoteStyle : Option Char)
  | whitespace
  | semiColon
  | other
  deriving DecidableEq, Repr

/-- The tokenizer; `none` is a tokenizer error. -/
abbrev Tokenizer := SqlparserDialect → Str → Option (List Token)

/-- The tokens a scan produces where it reads one character at a time. `emit` is the
finished tokens, `next` the mode in which the rest is read. -/
structure ScanStep (τ μ : Type) where
  emit : List τ
  next : μ

def firstSqlTokens (sql : Str) (limit : Nat) : List Str :=
  (wordsBy (fun ch => ch.isAlphanum || ch == '_') sql).take limit

def isSqlIdentChar (ch : Char) : Bool := ch == '_' || ch == '$' || ch.isAlphanum

def isAnyKeyword (keywords : List String) (token : Str) : Bool :=
  keywords.any (fun keyword => eqIgnoreAsciiCase token keyword.toList)

/-! ## MySQL routines -/

def isMysqlRoutineDdlStart (sql : Str) : Bool :=
  let executable := leadingExecutableSqlWithOptions sql .mysqlCompatible
  match firstSqlTokens executable 16 with
  | [] => false
  | first :: rest =>
    isAnyKeyword ["CREATE"] first &&
      -- The first decisive keyword after CREATE settles it.
      match rest.find? (isAnyKeyword ["PROCEDURE", "FUNCTION", "TRIGGER", "EVENT", "DATABASE",
          "INDEX", "LOGFILE", "ROLE", "SCHEMA", "SERVER", "SPATIAL", "TABLE", "TEMPORARY",
          "UNIQUE", "USER", "VIEW"]) with
      | some token => isAnyKeyword ["PROCEDURE", "FUNCTION", "TRIGGER", "EVENT"] token
      | none => false

/-- What `mysql_routine_tokens` is inside of. `skip` consumes one more character first. -/
inductive MysqlScanMode where
  | code | lineComment | blockComment | singleQuote | doubleQuote | backtick
  | word (token : Str)
  | skip (mode : MysqlScanMode)
  deriving DecidableEq, Repr

def mysqlCodeStep (ch : Char) (next : Option Char) : ScanStep Str MysqlScanMode :=
  if ch == '-' && next == some '-' then ⟨[], .skip .lineComment⟩
  else if ch == '#' then ⟨[], .lineComment⟩
  else if ch == '/' && next == some '*' then ⟨[], .skip .blockComment⟩
  else if ch == '\'' then ⟨[], .singleQuote⟩
  else if ch == '"' then ⟨[], .doubleQuote⟩
  else if ch == '\x60' then ⟨[], .backtick⟩
  else if ch == ';' then ⟨[[';']], .code⟩
  else if ch == '_' || ch.isAlpha then ⟨[], .word [ch]⟩
  else ⟨[], .code⟩

/-- A character inside a quoted text: a backslash or a doubled quote takes two characters. -/
def mysqlQuoteStep (quote ch : Char) (next : Option Char) (mode : MysqlScanMode) :
    ScanStep Str MysqlScanMode :=
  if ch == '\\' && next.isSome then ⟨[], .skip mode⟩
  else if ch == quote then ⟨[], if next == some quote then .skip mode else .code⟩
  else ⟨[], mode⟩

def mysqlScanStep (mode : MysqlScanMode) (ch : Char) (next : Option Char) :
    ScanStep Str MysqlScanMode :=
  match mode with
  | .code => mysqlCodeStep ch next
  | .lineComment => ⟨[], if ch == '\n' then .code else .lineComment⟩
  | .blockComment =>
    ⟨[], if ch == '*' && next == some '/' then .skip .code else .blockComment⟩
  | .singleQuote => mysqlQuoteStep '\'' ch next .singleQuote
  | .doubleQuote => mysqlQuoteStep '"' ch next .doubleQuote
  | .backtick =>
    ⟨[], if ch == '\x60' then if next == some '\x60' then .skip .backtick else .code
      else .backtick⟩
  | .word token =>
    if isSqlIdentChar ch then ⟨[], .word (token ++ [ch])⟩
    else
      let step := mysqlCodeStep ch next
      ⟨toAsciiUppercase token :: step.emit, step.next⟩
  | .skip mode => ⟨[], mode⟩

def mysqlRoutineTokensFrom (mode : MysqlScanMode) : Str → List Str
  | [] => match mode with
    | .word token => [toAsciiUppercase token]
    | _ => []
  | ch :: rest =>
    let step := mysqlScanStep mode ch rest.head?
    step.emit ++ mysqlRoutineTokensFrom step.next rest

def mysqlRoutineTokens (sql : Str) : List Str := mysqlRoutineTokensFrom .code sql

def startsWithMysqlRoutineBlock (sql : Str) : Bool :=
  isMysqlRoutineDdlStart sql && (mysqlRoutineTokens sql).any (isAnyKeyword ["BEGIN"])

inductive MysqlRoutineBlockType where
  | begin | case
  deriving DecidableEq, Repr

/-- The loop of `mysql_routine_block_is_complete`: `previous` is the last word before the
token, `stack` has its top first. Returns whether a `BEGIN` was seen and the final stack. -/
def mysqlRoutineBlocks (previous : Option Str) (sawBegin : Bool)
    (stack : List MysqlRoutineBlockType) : List Str → Bool × List MysqlRoutineBlockType
  | [] => (sawBegin, stack)
  | token :: rest =>
    let afterEnd := previous.any (isAnyKeyword ["END"])
    if token == [';'] then mysqlRoutineBlocks previous sawBegin stack rest
    else if isAnyKeyword ["BEGIN"] token then
      if afterEnd then mysqlRoutineBlocks (some token) sawBegin stack rest
      else mysqlRoutineBlocks (some token) true (.begin :: stack) rest
    else if isAnyKeyword ["CASE"] token then
      if afterEnd then mysqlRoutineBlocks (some token) sawBegin stack rest
      else mysqlRoutineBlocks (some token) sawBegin (.case :: stack) rest
    else if isAnyKeyword ["END"] token && sawBegin then
      let suffix := rest.find? (· != [';'])
      if suffix.any (isAnyKeyword ["CASE"]) then
        mysqlRoutineBlocks (some token) sawBegin
          (if stack.head? == some .case then stack.tail else stack) rest
      else if suffix.any (isAnyKeyword ["IF", "LOOP", "CASE", "REPEAT", "WHILE"]) then
        mysqlRoutineBlocks (some token) sawBegin stack rest
      else mysqlRoutineBlocks (some token) sawBegin stack.tail rest
    else mysqlRoutineBlocks (some token) sawBegin stack rest

def mysqlRoutineBlockIsComplete (sql : Str) : Bool :=
  startsWithMysqlRoutineBlock sql &&
    let tokens := mysqlRoutineTokens sql
    let (sawBegin, stack) := mysqlRoutineBlocks none false [] tokens
    sawBegin && stack.isEmpty && tokens.getLast? == some [';']

/-! ## Oracle PL/SQL blocks -/

inductive OraclePlSqlToken where
  | word (value : Str)
  | semicolon
  deriving DecidableEq, Repr

namespace OraclePlSqlToken

def fromSqlparserToken : Token → Option OraclePlSqlToken
  | .word value none => some (.word (toAsciiUppercase value))
  | .semiColon => some .semicolon
  | _ => none

def isWord (token : OraclePlSqlToken) (expected : String) : Bool :=
  token == .word expected.toList

def isAnyWord (token : OraclePlSqlToken) (expected : List String) : Bool :=
  expected.any token.isWord

def asWord : OraclePlSqlToken → Option Str
  | .word value => some value
  | .semicolon => none

end OraclePlSqlToken

/-- What the fallback tokenizer is inside of. -/
inductive OracleScanMode where
  | code | lineComment | singleQuote | doubleQuote
  | blockComment (previous : Char)
  | word (token : Str)
  | skip (mode : OracleScanMode)
  deriving DecidableEq, Repr

def oracleCodeStep (ch : Char) (next : Option Char) : ScanStep OraclePlSqlToken OracleScanMode :=
  if isWhitespace ch then ⟨[], .code⟩
  else if ch == '-' && next == some '-' then ⟨[], .skip .lineComment⟩
  else if ch == '/' && next == some '*' then ⟨[], .skip (.blockComment '\x00')⟩
  else if ch == '\'' then ⟨[], .singleQuote⟩
  else if ch == '"' then ⟨[], .doubleQuote⟩
  else if ch == ';' then ⟨[.semicolon], .code⟩
  else if ch.isAlpha || ch == '_' then ⟨[], .word [ch.toUpper]⟩
  else ⟨[], .code⟩

def oracleScanStep (mode : OracleScanMode) (ch : Char) (next : Option Char) :
    ScanStep OraclePlSqlToken OracleScanMode :=
  match mode with
  | .code => oracleCodeStep ch next
  | .lineComment => ⟨[], if ch == '\n' then .code else .lineComment⟩
  | .blockComment previous =>
    ⟨[], if previous == '*' && ch == '/' then .code else .blockComment ch⟩
  | .singleQuote =>
    ⟨[], if ch == '\'' then if next == some '\'' then .skip .singleQuote else .code
      else .singleQuote⟩
  | .doubleQuote => ⟨[], if ch == '"' then .code else .doubleQuote⟩
  | .word token =>
    if ch.isAlphanum || ch == '_' || ch == '$' || ch == '#' then
      ⟨[], .word (token ++ [ch.toUpper])⟩
    else
      let step := oracleCodeStep ch next
      ⟨.word token :: step.emit, step.next⟩
  | .skip mode => ⟨[], mode⟩

def oraclePlsqlTokensFallbackFrom (mode : OracleScanMode) : Str → List OraclePlSqlToken
  | [] => match mode with
    | .word token => [.word token]
    | _ => []
  | ch :: rest =>
    let step := oracleScanStep mode ch rest.head?
    step.emit ++ oraclePlsqlTokensFallbackFrom step.next rest

def oraclePlsqlTokensFallback (sql : Str) : List OraclePlSqlToken :=
  oraclePlsqlTokensFallbackFrom .code sql

def oraclePlsqlTokens (tokenize : Tokenizer) (sql : Str) : List OraclePlSqlToken :=
  match tokenize .oracle sql with
  | some tokens => tokens.filterMap OraclePlSqlToken.fromSqlparserToken
  | none => oraclePlsqlTokensFallback sql

namespace OraclePlSqlBlock

/-- Skips the modifiers after `CREATE`. -/
def skipCreateModifiers : List OraclePlSqlToken → List OraclePlSqlToken
  | first :: second :: tail =>
    if first.isWord "OR" && second.isWord "REPLACE" then skipCreateModifiers tail
    else if first.isAnyWord ["FORCE", "NOFORCE", "EDITIONABLE", "NONEDITIONABLE"] then
      skipCreateModifiers (second :: tail)
    else first :: second :: tail
  | [modifier] =>
    if modifier.isAnyWord ["FORCE", "NOFORCE", "EDITIONABLE", "NONEDITIONABLE"] then []
    else [modifier]
  | [] => []

def startsCreatePlsqlObject (tokens : List OraclePlSqlToken) : Bool :=
  match skipCreateModifiers tokens with
  | [] => false
  | object :: rest =>
    if object.isAnyWord ["PACKAGE", "TYPE"] && rest.head?.any (·.isWord "BODY") then true
    else if object.isWord "TYPE" then false
    else object.isAnyWord ["FUNCTION", "PROCEDURE", "TRIGGER", "PACKAGE"]

def isTransactionBeginTail (token : OraclePlSqlToken) : Bool :=
  token == .semicolon || token.isAnyWord ["TRANSACTION", "WORK"]

def startsBlock : List OraclePlSqlToken → Bool
  | [] => false
  | first :: rest =>
    if first.isWord "DECLARE" then true
    else if first.isWord "BEGIN" && rest.head?.any (fun second => !isTransactionBeginTail second)
      then true
    else first.isWord "CREATE" && startsCreatePlsqlObject rest

inductive CreateObjectKind where
  | spec | body
  deriving DecidableEq, Repr

def createObjectKind : List OraclePlSqlToken → Option CreateObjectKind
  | [] => none
  | first :: rest =>
    if first.isWord "CREATE" then
      match skipCreateModifiers rest with
      | [] => none
      | object :: rest =>
        if object.isAnyWord ["PACKAGE", "TYPE"] && rest.head?.any (·.isWord "BODY") then some .body
        else if object.isWord "PACKAGE" then some .spec
        else none
    else none

inductive Scope where
  | object | block | case
  deriving DecidableEq, Repr

/-- The loop of `is_complete`; `previous` is the last word token, `scopes` has its top first.
Returns `(saw_begin, complete)`. -/
def scanScopes (previous : Option Str) (scopes : List Scope) (sawBegin complete : Bool) :
    List OraclePlSqlToken → Bool × Bool
  | [] => (sawBegin, complete)
  | .semicolon :: rest => scanScopes previous scopes sawBegin complete rest
  | .word value :: rest =>
    if value == "BEGIN".toList then scanScopes (some value) (.block :: scopes) true false rest
    else if value == "CASE".toList then
      scanScopes (some value) (if previous == some "END".toList then scopes else .case :: scopes)
        sawBegin complete rest
    else if value == "END".toList then
      let next := rest.head?.bind OraclePlSqlToken.asWord
      if next == some "IF".toList || next == some "LOOP".toList then
        scanScopes (some value) scopes sawBegin complete rest
      else if next == some "CASE".toList && scopes.head? != some .case then
        scanScopes (some value) scopes sawBegin complete rest
      else match scopes with
        | [] => scanScopes (some value) [] sawBegin complete rest
        | _ :: outer => scanScopes (some value) outer sawBegin outer.isEmpty rest
    else scanScopes (some value) scopes sawBegin complete rest

def isComplete (tokens : List OraclePlSqlToken) : Bool :=
  startsBlock tokens &&
    match createObjectKind tokens with
    | some _ => (scanScopes none [.object] false false tokens).2
    | none =>
      let (sawBegin, complete) := scanScopes none [] false false tokens
      sawBegin && complete

end OraclePlSqlBlock

def startsWithOraclePlsqlBlock (tokenize : Tokenizer) (sql : Str) : Bool :=
  OraclePlSqlBlock.startsBlock (oraclePlsqlTokens tokenize sql)

def oraclePlsqlBlockIsComplete (tokenize : Tokenizer) (sql : Str) : Bool :=
  OraclePlSqlBlock.isComplete (oraclePlsqlTokens tokenize sql)

def startsWithPostgresDollarQuotedRoutinePrefix (tokenize : Tokenizer) (sql : Str) : Bool :=
  match oraclePlsqlTokens tokenize sql with
  | [] => false
  | first :: rest =>
    first.isWord "CREATE" &&
      (OraclePlSqlBlock.skipCreateModifiers rest).head?.any
        (·.isAnyWord ["FUNCTION", "PROCEDURE"]) &&
      (first :: rest).reverse.findSome? OraclePlSqlToken.asWord == some "AS".toList

/-! ## HANA `DO` blocks -/

namespace HanaDoBlock

def startsBlock (tokens : List OraclePlSqlToken) : Bool := tokens.head?.any (·.isWord "DO")

/-- The loop of `is_complete`; the stack has its top first. -/
def scanBlocks (previous : Option Str) (stack : List Str) (sawBegin : Bool) :
    List OraclePlSqlToken → List Str × Bool
  | [] => (stack, sawBegin)
  | .semicolon :: rest => scanBlocks previous stack sawBegin rest
  | .word value :: rest =>
    let afterEnd := previous == some "END".toList
    if value == "BEGIN".toList then
      if afterEnd then scanBlocks (some value) stack sawBegin rest
      else scanBlocks (some value) ("BLOCK".toList :: stack) true rest
    else if value == "IF".toList || value == "FOR".toList || value == "WHILE".toList
        || value == "CASE".toList then
      scanBlocks (some value) (if afterEnd then stack else value :: stack) sawBegin rest
    else if value == "END".toList then
      let next := rest.findSome? OraclePlSqlToken.asWord
      let target :=
        if next == some "IF".toList || next == some "FOR".toList || next == some "WHILE".toList
        then next.getD []
        else if stack.head? == some "CASE".toList then "CASE".toList
        else "BLOCK".toList
      scanBlocks (some value) (if stack.head? == some target then stack.tail else stack)
        sawBegin rest
    else scanBlocks (some value) stack sawBegin rest

def isComplete (tokens : List OraclePlSqlToken) : Bool :=
  startsBlock tokens &&
    let (stack, sawBegin) := scanBlocks none [] false tokens
    sawBegin && stack.isEmpty && tokens.getLast? == some .semicolon

end HanaDoBlock

def startsWithHanaDoBlock (tokenize : Tokenizer) (sql : Str) : Bool :=
  HanaDoBlock.startsBlock (oraclePlsqlTokens tokenize sql)

def hanaDoBlockIsComplete (tokenize : Tokenizer) (sql : Str) : Bool :=
  HanaDoBlock.isComplete (oraclePlsqlTokens tokenize sql)

end Dbx.Source
