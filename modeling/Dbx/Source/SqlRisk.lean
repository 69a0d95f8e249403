import Dbx.Source.QueryExecutionSql
import Dbx.Source.SqlAst
import Mathlib.Data.List.Destutter

/-!
# Risk of a parsed text

Model of `sql_risk.rs`: the classification of statements (69-141), the statements
that need an approval (143-181) with the predicate analysis behind them (184-590),
and the verdicts on a whole text (668-727, 786-886).

Parameters besides the parser and the tokenizer: the order that `sqlparser` derives
on expressions and the reading of a decimal literal as an `f64` (`ExprTables`).
-/
namespace Dbx.Source

open Dbx.Lib.Text

inductive SqlRisk where
  | readOnly | write | ddl | transaction
  deriving DecidableEq, Repr

namespace SqlRisk

/-- `risk as u8`. -/
def level : SqlRisk → Nat
  | readOnly => 0
  | write => 1
  | ddl => 2
  | transaction => 3

end SqlRisk

/-- The comparison of expressions and the arithmetic of `f64` literals. -/
structure ExprTables where
  le : Expr → Expr → Bool
  Float : Type
  parse : Str → Option Float
  floatLt : Float → Float → Bool
  floatLe : Float → Float → Bool
  isZero : Float → Bool

/-! ## Predicates -/

/-- Some element is related to a later one. -/
def anyLaterPair {α : Type} (related : α → α → Bool) : List α → Bool
  | [] => false
  | first :: rest => rest.any (related first) || anyLaterPair related rest

def isSqlValueKeyword (value : Str) : Bool :=
  ["current_catalog", "current_date", "current_role", "current_schema", "current_time",
    "current_timestamp", "current_user", "localtime", "localtimestamp", "session_user",
    "system_user", "user"].any fun keyword => toAsciiLowercase value == keyword.toList

def exprContainsColumnReference (expr : Expr) : Bool :=
  expr.visit.any fun
    | .identifier ident => !isSqlValueKeyword ident.value
    | .compoundIdentifier _ => true
    | _ => false

def exprContainsSubquery (expr : Expr) : Bool :=
  expr.visit.any fun
    | .inSubquery .. | .exists .. | .subquery _ => true
    | _ => false

def stripNestedExpr : Expr → Expr
  | .nested inner => stripNestedExpr inner
  | expr => expr

def orContainsConjunctiveBranch : Expr → Bool
  | .nested expr => orContainsConjunctiveBranch expr
  | .binaryOp left .or right =>
    orContainsConjunctiveBranch left || orContainsConjunctiveBranch right
  | .binaryOp _ .and _ => true
  | _ => false

/-- The branches of a disjunction, below any parentheses. -/
def orBranches : Expr → List Expr
  | .nested expr => orBranches expr
  | .binaryOp left .or right => orBranches left ++ orBranches right
  | expr => [expr]

inductive PredicateComparisonOperator where
  | eq | notEq | gt | gtEq | lt | ltEq
  deriving DecidableEq, Repr

namespace PredicateComparisonOperator

def ofBinary : BinaryOperator → Option PredicateComparisonOperator
  | .eq | .spaceship => some eq
  | .notEq => some notEq
  | .gt => some gt
  | .gtEq => some gtEq
  | .lt => some lt
  | .ltEq => some ltEq
  | _ => none

def complementary : PredicateComparisonOperator → PredicateComparisonOperator
  | eq => notEq
  | notEq => eq
  | gt => ltEq
  | gtEq => lt
  | lt => gtEq
  | ltEq => gt

def reverse : PredicateComparisonOperator → PredicateComparisonOperator
  | eq => eq
  | notEq => notEq
  | gt => lt
  | gtEq => ltEq
  | lt => gt
  | ltEq => gtEq

end PredicateComparisonOperator

structure PredicateComparisonCheck where
  left : Expr
  right : Expr
  operator : PredicateComparisonOperator

structure PredicateInListCheck where
  expr : Expr
  list : List Expr
  negated : Bool

structure PredicateBetweenCheck where
  expr : Expr
  low : Expr
  high : Expr
  negated : Bool

def nullCheckWithNegation (outerNegated : Bool) : Expr → Option (Expr × Bool)
  | .nested expr => nullCheckWithNegation outerNegated expr
  | .unaryOp .not expr => nullCheckWithNegation (!outerNegated) expr
  | .isNull expr => some (stripNestedExpr expr, outerNegated)
  | .isNotNull expr => some (stripNestedExpr expr, !outerNegated)
  | _ => none

def betweenCheck (outerNegated : Bool) : Expr → Option PredicateBetweenCheck
  | .nested expr => betweenCheck outerNegated expr
  | .unaryOp .not expr => betweenCheck (!outerNegated) expr
  | .between expr negated low high =>
    if exprContainsColumnReference expr then
      some ⟨stripNestedExpr expr, stripNestedExpr low, stripNestedExpr high,
        negated != outerNegated⟩
    else none
  | _ => none

def isValue : Expr → Bool
  | .value _ => true
  | _ => false

def likePatternMatchesAll (expr : Expr) : Bool :=
  match stripNestedExpr expr with
  | .value (.singleQuotedString pattern) => !pattern.isEmpty && pattern.all (· == '%')
  | _ => false

def isComparisonOperator : BinaryOperator → Bool
  | .eq | .notEq | .gt | .lt | .gtEq | .ltEq | .spaceship => true
  | _ => false

section Predicates

variable (tables : ExprTables) [DecidableEq Expr]

def comparisonCheck (outerNegated : Bool) : Expr → Option PredicateComparisonCheck
  | .nested expr => comparisonCheck outerNegated expr
  | .unaryOp .not expr => comparisonCheck (!outerNegated) expr
  | .binaryOp left op right =>
    if !exprContainsColumnReference (.binaryOp left op right) then none
    else (PredicateComparisonOperator.ofBinary op).map fun operator =>
      let operator := if outerNegated then operator.complementary else operator
      let left := stripNestedExpr left
      let right := stripNestedExpr right
      if tables.le left right then ⟨left, right, operator⟩ else ⟨right, left, operator.reverse⟩
  | _ => none

def inListCheck (outerNegated : Bool) : Expr → Option PredicateInListCheck
  | .nested expr => inListCheck outerNegated expr
  | .unaryOp .not expr => inListCheck (!outerNegated) expr
  | .inList expr list negated =>
    if exprContainsColumnReference expr && !list.isEmpty then
      let stripped := list.map stripNestedExpr
      let normalized :=
        if stripped.all isValue then (stripped.mergeSort tables.le).destutter (· ≠ ·) else stripped
      some ⟨stripNestedExpr expr, normalized, negated != outerNegated⟩
    else none
  | _ => none

def orContainsComplementaryNullChecks (expr : Expr) : Bool :=
  anyLaterPair (fun candidate other => candidate.1 == other.1 && candidate.2 != other.2)
    ((orBranches expr).filterMap (nullCheckWithNegation false))

def orContainsComplementaryComparisons (expr : Expr) : Bool :=
  anyLaterPair (fun candidate other => candidate.left == other.left &&
      candidate.right == other.right && candidate.operator.complementary == other.operator)
    ((orBranches expr).filterMap (comparisonCheck tables false))

def orContainsComplementaryInLists (expr : Expr) : Bool :=
  anyLaterPair (fun candidate other => candidate.expr == other.expr &&
      candidate.list == other.list && candidate.negated != other.negated)
    ((orBranches expr).filterMap (inListCheck tables false))

def orContainsComplementaryBetweenChecks (expr : Expr) : Bool :=
  anyLaterPair (fun candidate other => candidate.expr == other.expr &&
      candidate.low == other.low && candidate.high == other.high &&
      candidate.negated != other.negated)
    ((orBranches expr).filterMap (betweenCheck false))

def valueIsTruthy : SqlValue → Bool
  | .boolean value => value
  | .number text _ => (tables.parse text).any fun number => !tables.isZero number
  | _ => false

def valueIsFalsy : SqlValue → Bool
  | .boolean value => !value
  | .number text _ => (tables.parse text).any tables.isZero
  | .null => true
  | _ => false

/-- The comparison of two numeric literals that both parse. -/
def compareNumbers (compare : tables.Float → tables.Float → Bool) : SqlValue → SqlValue → Option Bool
  | .number left _, .number right _ => do
    let left ← tables.parse left
    let right ← tables.parse right
    some (compare left right)
  | _, _ => none

def constantComparisonTruth (left : Expr) (operator : BinaryOperator) (right : Expr) :
    Option Bool :=
  match left, right with
  | .value left, .value right =>
    match operator with
    | .eq | .spaceship => some (left == right)
    | .notEq => some (left != right)
    | .gt => compareNumbers tables (fun l r => tables.floatLt r l) left right
    | .lt => compareNumbers tables tables.floatLt left right
    | .gtEq => compareNumbers tables (fun l r => tables.floatLe r l) left right
    | .ltEq => compareNumbers tables tables.floatLe left right
    | _ => none
  | _, _ => none

mutual

def predicateIsObviouslyUnbounded (expr : Expr) : Bool :=
  exprContainsSubquery expr || !exprContainsColumnReference expr ||
    match expr with
    | .nested expr => predicateIsObviouslyUnbounded expr
    | .value value => valueIsTruthy tables value
    | .unaryOp .not expr => predicateIsObviouslyFalse expr
    | .binaryOp left .and right =>
      predicateIsObviouslyUnbounded left && predicateIsObviouslyUnbounded right
    | .binaryOp left .or right =>
      orContainsConjunctiveBranch (.binaryOp left .or right) ||
        orContainsComplementaryNullChecks (.binaryOp left .or right) ||
        orContainsComplementaryComparisons tables (.binaryOp left .or right) ||
        orContainsComplementaryInLists tables (.binaryOp left .or right) ||
        orContainsComplementaryBetweenChecks (.binaryOp left .or right) ||
        predicateIsObviouslyUnbounded left || predicateIsObviouslyUnbounded right
    | .binaryOp left op right =>
      isComparisonOperator op &&
        (constantComparisonTruth tables left op right).getD
          (left == right && [.eq, .gtEq, .ltEq, .spaceship].contains op)
    | .isNotDistinctFrom left right => stripNestedExpr left == stripNestedExpr right
    | .isTrue expr => predicateIsObviouslyUnbounded expr
    | .isNotFalse expr => predicateIsObviouslyUnbounded expr
    | .like false false expr pattern none =>
      exprContainsColumnReference expr && likePatternMatchesAll pattern
    | .iLike false false expr pattern none =>
      exprContainsColumnReference expr && likePatternMatchesAll pattern
    | _ => false

def predicateIsObviouslyFalse (expr : Expr) : Bool :=
  match expr with
  | .nested expr => predicateIsObviouslyFalse expr
  | .value value => valueIsFalsy tables value
  | .unaryOp .not expr => predicateIsObviouslyUnbounded expr
  | .binaryOp left .and right =>
    predicateIsObviouslyFalse left || predicateIsObviouslyFalse right
  | .binaryOp left .or right =>
    predicateIsObviouslyFalse left && predicateIsObviouslyFalse right
  | .binaryOp left op right =>
    isComparisonOperator op &&
      ((constantComparisonTruth tables left op right).any (!·) ||
        left == right && [.notEq, .gt, .lt].contains op)
  | .isDistinctFrom left right => stripNestedExpr left == stripNestedExpr right
  | .isFalse expr => predicateIsObviouslyUnbounded expr
  | .isNotTrue expr => predicateIsObviouslyUnbounded expr
  | _ => false

end

end Predicates

/-! ## Queries and statements -/

def sideEffectSelectFunctions : List String :=
  ["lo_create", "lo_import", "lo_unlink", "nextval", "pg_advisory_lock", "pg_advisory_unlock",
    "pg_advisory_unlock_all", "pg_advisory_xact_lock", "pg_cancel_backend", "pg_reload_conf",
    "pg_terminate_backend", "pg_try_advisory_lock", "pg_try_advisory_xact_lock", "setval",
    "sys_cancel_backend"]

def queryCallsKnownSideEffectFunction (query : Query) : Bool :=
  query.visit.any fun
    | .function name _ _ =>
      match name.getLast? with
      | some (some ident) =>
        sideEffectSelectFunctions.any fun candidate =>
          eqIgnoreAsciiCase ident.value candidate.toList
      | _ => false
    | _ => false

section Queries

variable (detectSelectInto : Bool)

mutual

def queryIsWriteCapable : Query → Bool
  | .mk ctes body hasLocks exprs =>
    anyWriteCapable ctes || setExprIsWriteCapable body || hasLocks ||
      queryCallsKnownSideEffectFunction (.mk ctes body hasLocks exprs)

def setExprIsWriteCapable : SetExpr → Bool
  | .select hasInto _ _ => detectSelectInto && hasInto
  | .query query => queryIsWriteCapable query
  | .setOperation left right => setExprIsWriteCapable left || setExprIsWriteCapable right
  | .insert _ | .update _ | .delete _ | .merge _ => true
  | .values _ | .table => false

def anyWriteCapable : List Query → Bool
  | [] => false
  | query :: queries => queryIsWriteCapable query || anyWriteCapable queries

end

/-- The risk of a statement of which only the kind matters. -/
def StatementKind.risk : StatementKind → SqlRisk
  | explainTable | showTables | showColumns | showCatalogs | showDatabases | showSchemas
  | showViews | showFunctions | showCreate | showVariable | showVariables | showStatus
  | showProcessList | showCharset | showObjects | showCollation => .readOnly
  | createTable | createView | createIndex | createSchema | createSequence | createRole
  | createType | alterTable | alterIndex | alterView | drop | truncate | grant | revoke => .ddl
  | startTransaction | commit | rollback => .transaction
  | copy | pragma | use | other => .write

def classifyStatement : Statement → SqlRisk
  | .query query => if queryIsWriteCapable detectSelectInto query then .write else .readOnly
  | .explain analyze statement => if analyze then classifyStatement statement else .readOnly
  | .insert .. | .update .. | .delete .. | .merge .. => .write
  | .plain kind _ _ => kind.risk

variable (tables : ExprTables) [DecidableEq Expr]

def insertIsDangerous (replaceInto overwrite : Bool) (or : Option SqliteOnConflict)
    (on : Option OnInsert) (source : Option Query) : Bool :=
  replaceInto || overwrite || or == some .replace ||
    (match on with
      | none => false
      | some .duplicateKeyUpdate => true
      | some (.onConflict doUpdate) => doUpdate
      | some .other => true) ||
    (match source with
      | none => false
      | some query => match query.body with
        | .values _ => false
        | _ => true)

def selectionIsUnbounded : Option Expr → Bool
  | none => true
  | some selection => predicateIsObviouslyUnbounded tables selection

mutual

def queryIsDangerous : Query → Bool
  | .mk ctes body hasLocks exprs =>
    anyDangerous ctes || setExprIsDangerous body || hasLocks ||
      queryCallsKnownSideEffectFunction (.mk ctes body hasLocks exprs)

def setExprIsDangerous : SetExpr → Bool
  | .select hasInto _ _ => detectSelectInto && hasInto
  | .query query => queryIsDangerous query
  | .setOperation left right => setExprIsDangerous left || setExprIsDangerous right
  | .insert statement => statementIsDangerous statement
  | .update statement => statementIsDangerous statement
  | .delete statement => statementIsDangerous statement
  | .merge statement => statementIsDangerous statement
  | .values _ | .table => false

def statementIsDangerous : Statement → Bool
  | .plain kind exprs queries =>
    kind != .use && classifyStatement detectSelectInto (.plain kind exprs queries) != .readOnly
  | .query query => queryIsDangerous query
  | .insert replaceInto overwrite or on source _ _ =>
    insertIsDangerous replaceInto overwrite or on source
  | .update tableJoins hasFrom or selection _ _ =>
    tableJoins || hasFrom || or == some .replace || selectionIsUnbounded tables selection
  | .delete hasTables hasUsing fromJoins selection _ _ =>
    hasTables || hasUsing || fromJoins.length != 1 || fromJoins.head?.getD true ||
      selectionIsUnbounded tables selection
  | .merge _ _ => true
  | .explain analyze statement => analyze && statementIsDangerous statement

def anyDangerous : List Query → Bool
  | [] => false
  | query :: queries => queryIsDangerous query || anyDangerous queries

end

end Queries

/-! ## The verdicts on a text -/

/-- The word forms of a locking clause. -/
def lockingForms : List (List String) :=
  [["FOR", "UPDATE"], ["FOR", "SHARE"], ["FOR", "KEY", "SHARE"], ["FOR", "NO", "KEY", "UPDATE"],
    ["LOCK", "IN", "SHARE", "MODE"]]

def containsLockingForm (words : List Str) : Bool :=
  lockingForms.any fun form => words.tails.any (form.map (·.toList)).isPrefixOf

/-- The window of the last four words. -/
def pushWord (words : List Str) (word : Str) : List Str :=
  let words := words ++ [toAsciiUppercase word]
  if words.length > 4 then words.tail else words

def lockingClauseFrom (words : List Str) : List Token → Bool
  | [] => false
  | .word value none :: tokens =>
    containsLockingForm (pushWord words value) || lockingClauseFrom (pushWord words value) tokens
  | .whitespace :: tokens => lockingClauseFrom words tokens
  | _ :: tokens => lockingClauseFrom [] tokens

/-- `normalize_dialect` and `resolve_dialect` on a dialect's name. -/
def resolveDialect (dialect : Str) : SqlparserDialect :=
  let isOneOf := fun names : List String =>
    names.any fun name => toAsciiLowercase dialect == name.toList
  if isOneOf ["postgres", "postgresql", "redshift", "opengauss", "gaussdb", "kingbase", "highgo",
      "uxdb", "vastbase", "kwdb"] then .postgreSql
  else if isOneOf ["mysql", "mariadb", "doris", "starrocks", "manticoresearch", "oceanbase"] then
    .mySql
  else if isOneOf ["sqlite"] then .sqlite
  else if isOneOf ["sqlserver", "mssql"] then .msSql
  else if isOneOf ["clickhouse"] then .clickHouse
  else if isOneOf ["duckdb"] then .duckDb
  else .generic

/-- `resolveDialect` of the name of a database type's variant. -/
def dialectForDatabaseType : DatabaseType → SqlparserDialect
  | .postgres | .redshift | .openGauss | .gaussdb | .kingbase | .highgo | .uxdb | .vastbase
  | .kwdb => .postgreSql
  | .mysql | .doris | .starRocks | .manticoreSearch => .mySql
  | .sqlite => .sqlite
  | .sqlServer => .msSql
  | .clickHouse => .clickHouse
  | .duckDb => .duckDb
  | _ => .generic

def supportsSelectIntoTableCreation (databaseType : DatabaseType) : Bool :=
  databaseType.isPostgresqlFamily || databaseType == .sqlServer

/-- The loop over the statements: the highest risk, the first of equals. -/
def maxRisk (detectSelectInto : Bool) (risk : SqlRisk) : List Statement → SqlRisk
  | [] => risk
  | statement :: statements =>
    let next := classifyStatement detectSelectInto statement
    maxRisk detectSelectInto (if next.level > risk.level then next else risk) statements

/-- The third-party functions that the verdicts on a text rest on. -/
structure Toolchain where
  parse : Parser
  tokenize : Tokenizer
  cases : CaseTables
  exprs : ExprTables

namespace Toolchain

variable (tools : Toolchain)

def sqlContainsLockingClause (sql : Str) (dialect : SqlparserDialect) : Bool :=
  (tools.tokenize dialect sql).any (lockingClauseFrom [])

/-- The parsed statements, if the text parses and has any. -/
def parsedStatements (dialect : SqlparserDialect) (sql : Str) : Option (List Statement) :=
  (tools.parse dialect sql).filter (!·.isEmpty)

/-- What the text fallback tells when the caller names a database or only a dialect. -/
def fallbackIsWrite (sql : Str) : Option DatabaseType → Bool
  | some databaseType => isWriteSqlForDatabase tools.tokenize tools.cases sql databaseType
  | none => isWriteSql tools.tokenize tools.cases sql

def unparsedWrite (sql : Str) (dialect : SqlparserDialect) : Option DatabaseType → Bool
  | some databaseType => hasDialectSpecificWrite tools.tokenize sql databaseType
  | none => dialect == .mySql && hasDialectSpecificWrite tools.tokenize sql .mysql

def classifySqlRiskWithDatabase (sql : Str) (dialect : SqlparserDialect)
    (databaseType : Option DatabaseType) : Except Str SqlRisk :=
  let hasLockingClause := tools.sqlContainsLockingClause sql dialect
  let hasDialectSpecificWrite := tools.unparsedWrite sql dialect databaseType
  match tools.parsedStatements dialect sql with
  | some statements =>
    let risk := maxRisk databaseType.isNone .readOnly statements
    if risk == .readOnly && (hasDialectSpecificWrite || hasLockingClause) then .ok .write
    else .ok risk
  | none =>
    if tools.fallbackIsWrite sql databaseType || hasLockingClause then .ok .write
    else .ok .readOnly

def classifySqlRisk (sql dialect : Str) : Except Str SqlRisk :=
  tools.classifySqlRiskWithDatabase sql (resolveDialect dialect) none

def classifySqlRiskForDatabase (sql : Str) (databaseType : DatabaseType) : Except Str SqlRisk :=
  match classifySearchEngineQueryRisk sql databaseType with
  | some .readOnly => .ok .readOnly
  | some .write => .ok .write
  | some .dangerous => .ok .ddl
  | none =>
    tools.classifySqlRiskWithDatabase sql (dialectForDatabaseType databaseType) (some databaseType)

def isDangerousSqlForDatabase [DecidableEq Expr] (sql : Str) (databaseType : DatabaseType) : Bool :=
  match classifySearchEngineQueryRisk sql databaseType with
  | some risk => risk == .dangerous
  | none =>
    let dialect := dialectForDatabaseType databaseType
    let detectSelectInto := supportsSelectIntoTableCreation databaseType
    let hasLockingClause := tools.sqlContainsLockingClause sql dialect
    let hasUnparsedDialectSpecificWrite :=
      !detectSelectInto && hasDialectSpecificWrite tools.tokenize sql databaseType
    match tools.parsedStatements dialect sql with
    | some statements =>
      hasLockingClause || hasUnparsedDialectSpecificWrite ||
        statements.any (statementIsDangerous detectSelectInto tools.exprs)
    | none =>
      hasLockingClause || isWriteSqlForDatabase tools.tokenize tools.cases sql databaseType

end Toolchain

end Dbx.Source
