import Mathlib.Algebra.GroupWithZero.Nat
import Dbx.Source.StatementSplitter

/-!
# Batches of INSERT statements

Model of `optimize_sql_file_import_statements` (`sql.rs:1647-1710`), which joins neighbouring
INSERT statements of an imported file, of the batch that is pending (1712-1766), of the
parser that decides what can be joined (1768-1863, 1944-1989). Its scanner is the one of
the statement splitter (`SqlScanner`).

`prepare_sql_file_statement` is a parameter: what an import does with a statement before it
is looked at here. Positions in the text are pairs of the text before and behind them.
-/
namespace Dbx.Source

open Dbx.Lib.Text

/-! ## Statements that can be joined -/

def keywordAt (before text : Str) (keyword : String) : Bool :=
  eqIgnoreAsciiCase (text.take keyword.length) keyword.toList &&
    before.getLast?.all (fun ch => !isSqlIdentChar ch) &&
    (text.drop keyword.length).head?.all (fun ch => !isSqlIdentChar ch)

/-- `starts_with_keyword` of `sql.rs`. -/
def sqlStartsWithKeyword (sql : Str) (keyword : String) : Bool := keywordAt [] sql keyword

/-- The text behind the keyword that stands here. -/
def afterValuesKeyword (before text : Str) : Option Str :=
  (["values", "value"].find? (keywordAt before text)).map fun keyword => text.drop keyword.length

/-- The text before the first keyword outside brackets and the text behind it. -/
def findTopLevelValuesKeyword (scanner : SqlScanner) (depth : Nat) (before : Str) :
    Str → Option (Str × Str)
  | [] => none
  | ch :: rest =>
    let scanner := scanner.step ch rest
    let go depth := findTopLevelValuesKeyword scanner depth (before ++ [ch]) rest
    if scanner.isMasked then go depth
    else if ch == '(' then go (depth + 1)
    else if ch == ')' then go (depth - 1)
    else if depth == 0 then
      match afterValuesKeyword before (ch :: rest) with
      | some after => some (before, after)
      | none => go depth
    else go depth

/-- The loop of `parse_insert_values_tail`: the text is a list of tuples. -/
def isTupleList (scanner : SqlScanner) (depth : Nat) (sawTuple expectingTuple : Bool) : Str → Bool
  | [] => sawTuple && depth == 0
  | ch :: rest =>
    let scanner := scanner.step ch rest
    if scanner.isMasked then isTupleList scanner depth sawTuple expectingTuple rest
    else if expectingTuple then
      if isWhitespace ch || sawTuple && ch == ',' then isTupleList scanner depth sawTuple true rest
      else ch == '(' && isTupleList scanner 1 true false rest
    else if ch == '(' then isTupleList scanner (depth + 1) sawTuple false rest
    else if ch == ')' then
      depth != 0 && isTupleList scanner (depth - 1) sawTuple (depth - 1 == 0) rest
    else (depth != 0 || ch == ',' || isWhitespace ch) && isTupleList scanner depth sawTuple false rest

def trimEndSemicolons (sql : Str) : Str := trim ((trim sql).rdropWhile (· == ';'))

def parseInsertValuesTail (tail : Str) : Option Str :=
  let tail := trimEndSemicolons tail
  if !tail.isEmpty && isTupleList {} 0 false true tail then some tail else none

/-- Inside quotes; in a comment the scanner is masked but not quoted. -/
def SqlScanner.isQuoted (s : SqlScanner) : Bool :=
  s.inSingleQuote || s.inDoubleQuote || s.inBacktick || s.dollarQuoteTag.isSome

def normalizeInsertPrefixKeyFrom (scanner : SqlScanner) (previousSpace : Bool) : Str → Str
  | [] => []
  | ch :: rest =>
    let scanner := scanner.step ch rest
    if scanner.isQuoted then ch :: normalizeInsertPrefixKeyFrom scanner false rest
    else if isWhitespace ch then
      (if previousSpace then [] else [' ']) ++ normalizeInsertPrefixKeyFrom scanner true rest
    else ch.toLower :: normalizeInsertPrefixKeyFrom scanner false rest

def normalizeInsertPrefixKey ( insertPrefix : Str) : Str :=
  trim (normalizeInsertPrefixKeyFrom {} false insertPrefix)

structure MergeableInsert where
  start : Str
  startKey : Str
  values : Str
  sql : Str
  deriving DecidableEq, Repr

def parseMergeableInsert (sql : Str) (profile : SqlDialectProfile) : Option MergeableInsert :=
  let executable := trimEndSemicolons (leadingExecutableSqlWithOptions sql profile)
  if !sqlStartsWithKeyword executable "insert" then none
  else do
    let (before, after) ← findTopLevelValuesKeyword {} 0 [] executable
    let values ← parseInsertValuesTail (trim after)
    let start := trimEnd before
    some ⟨start, normalizeInsertPrefixKey start, values, executable⟩

/-! ## Batches -/

def sqlFileInsertBatchMaxStatements : Nat := 500

def sqlFileInsertBatchMaxBytes : Nat := 4 * 1024 * 1024

def byteLength (t : Str) : Nat := (t.map Char.utf8Size).sum

structure PendingInsertBatch where
  start : Str
  startKey : Str
  values : List Str
  sourceSqls : List Str
  sourceStatementCount : Nat
  byteLen : Nat
  deriving DecidableEq, Repr

namespace PendingInsertBatch

def new (insert : MergeableInsert) : PendingInsertBatch where
  start := insert.start
  startKey := insert.startKey
  values := [insert.values]
  sourceSqls := [insert.sql]
  sourceStatementCount := 1
  byteLen := byteLength insert.start + byteLength insert.values + 16

def canAccept (batch : PendingInsertBatch) (insert : MergeableInsert) : Bool :=
  batch.startKey == insert.startKey &&
    batch.sourceStatementCount < sqlFileInsertBatchMaxStatements &&
    batch.byteLen + byteLength insert.values + 3 ≤ sqlFileInsertBatchMaxBytes

def push (batch : PendingInsertBatch) (insert : MergeableInsert) : PendingInsertBatch :=
  { batch with
    byteLen := batch.byteLen + byteLength insert.values + 3
    values := batch.values ++ [insert.values]
    sourceSqls := batch.sourceSqls ++ [insert.sql]
    sourceStatementCount := batch.sourceStatementCount + 1 }

def toSql (batch : PendingInsertBatch) : Str :=
  if batch.sourceStatementCount == 1 then batch.sourceSqls.head?.getD []
  else batch.start ++ " VALUES\n".toList ++ joinWith ",\n".toList batch.values

end PendingInsertBatch

inductive SqlFileStatementAction where
  | execute (sql : Str)
  | skip
  deriving DecidableEq, Repr

inductive SqlFileImportStatementKind where
  | execute | skip
  deriving DecidableEq, Repr

structure SqlFileImportStatement where
  kind : SqlFileImportStatementKind
  sql : Str
  sourceSqls : List Str
  sourceStatementCount : Nat
  deriving DecidableEq, Repr

/-- One statement that stays as it is. -/
def SqlFileImportStatement.single (kind : SqlFileImportStatementKind) (sql : Str) :
    SqlFileImportStatement := ⟨kind, sql, [sql], 1⟩

def flushPendingInsert (pending : Option PendingInsertBatch) : List SqlFileImportStatement :=
  match pending with
  | some batch => [⟨.execute, batch.toSql, batch.sourceSqls, batch.sourceStatementCount⟩]
  | none => []

/-- The loop over the statements, with the batch that is pending. -/
def optimizeFrom (prepare : Str → SqlFileStatementAction) (profile : SqlDialectProfile) :
    Option PendingInsertBatch → List Str → List SqlFileImportStatement
  | pending, [] => flushPendingInsert pending
  | pending, statement :: rest =>
    match prepare statement with
    | .skip =>
      flushPendingInsert pending ++
        .single .skip (trim statement) :: optimizeFrom prepare profile none rest
    | .execute sql =>
      match parseMergeableInsert sql profile with
      | none =>
        flushPendingInsert pending ++ .single .execute sql :: optimizeFrom prepare profile none rest
      | some insert =>
        match pending with
        | some batch =>
          if batch.canAccept insert then optimizeFrom prepare profile (some (batch.push insert)) rest
          else flushPendingInsert pending ++ optimizeFrom prepare profile (some (.new insert)) rest
        | none => optimizeFrom prepare profile (some (.new insert)) rest

def optimizeSqlFileImportStatements (prepare : Str → SqlFileStatementAction)
    (profile : SqlDialectProfile) (statements : List Str) : List SqlFileImportStatement :=
  optimizeFrom prepare profile none statements

end Dbx.Source
