import Dbx.Source.RoutineBlocks

/-!
# The syntax tree of a parsed text

The part of `sqlparser`'s syntax tree that `sql_risk.rs` looks at. A node keeps the
fields the code matches on. Its other children stay as the lists `exprs` and
`queries`, since the visitor `visit_expressions` reaches every expression below a
node, also those inside nested queries and statements. The parser itself is a
parameter.
-/
namespace Dbx.Source

open Dbx.Lib.Text

structure Ident where
  value : Str
  quoteStyle : Option Char := none
  deriving DecidableEq, Repr

/-- The literals that the predicates tell apart. -/
inductive SqlValue where
  | number (text : Str) (long : Bool)
  | singleQuotedString (text : Str)
  | boolean (value : Bool)
  | null
  | other (text : Str)
  deriving DecidableEq, Repr

inductive UnaryOperator where
  | not
  | other (symbol : Str)
  deriving DecidableEq, Repr

inductive BinaryOperator where
  | and | or | eq | notEq | gt | gtEq | lt | ltEq | spaceship
  | other (symbol : Str)
  deriving DecidableEq, Repr

inductive SqliteOnConflict where
  | rollback | abort | fail | ignore | replace
  deriving DecidableEq, Repr

inductive OnInsert where
  | duplicateKeyUpdate
  | onConflict (doUpdate : Bool)
  | other
  deriving DecidableEq, Repr

/-- The statements of which only the kind matters. -/
inductive StatementKind where
  | explainTable | showTables | showColumns | showCatalogs | showDatabases | showSchemas
  | showViews | showFunctions | showCreate | showVariable | showVariables | showStatus
  | showProcessList | showCharset | showObjects | showCollation
  | createTable | createView | createIndex | createSchema | createSequence | createRole
  | createType | alterTable | alterIndex | alterView | drop | truncate | grant | revoke
  | startTransaction | commit | rollback | copy | pragma | use | other
  deriving DecidableEq, Repr

mutual

inductive Expr where
  | identifier (ident : Ident)
  | compoundIdentifier (parts : List Ident)
  | value (value : SqlValue)
  | nested (expr : Expr)
  | unaryOp (op : UnaryOperator) (expr : Expr)
  | binaryOp (left : Expr) (op : BinaryOperator) (right : Expr)
  | isTrue (expr : Expr)
  | isNotTrue (expr : Expr)
  | isFalse (expr : Expr)
  | isNotFalse (expr : Expr)
  | isNull (expr : Expr)
  | isNotNull (expr : Expr)
  | isDistinctFrom (left right : Expr)
  | isNotDistinctFrom (left right : Expr)
  | inList (expr : Expr) (list : List Expr) (negated : Bool)
  | between (expr : Expr) (negated : Bool) (low high : Expr)
  | like (negated any : Bool) (expr pattern : Expr) (escapeChar : Option SqlValue)
  | iLike (negated any : Bool) (expr pattern : Expr) (escapeChar : Option SqlValue)
  | inSubquery (expr : Expr) (query : Query) (negated : Bool)
  | exists (query : Query) (negated : Bool)
  | subquery (query : Query)
  /-- `name` holds the identifier parts of the name. -/
  | function (name : List (Option Ident)) (exprs : List Expr) (queries : List Query)
  | other (label : Str) (exprs : List Expr) (queries : List Query)

inductive Query where
  | mk (ctes : List Query) (body : SetExpr) (hasLocks : Bool) (exprs : List Expr)

inductive SetExpr where
  | select (hasInto : Bool) (exprs : List Expr) (queries : List Query)
  | query (query : Query)
  | setOperation (left right : SetExpr)
  | insert (statement : Statement)
  | update (statement : Statement)
  | delete (statement : Statement)
  | merge (statement : Statement)
  | values (exprs : List Expr)
  | table

inductive Statement where
  | query (query : Query)
  | explain (analyze : Bool) (statement : Statement)
  | insert (replaceInto overwrite : Bool) (or : Option SqliteOnConflict) (on : Option OnInsert)
      (source : Option Query) (exprs : List Expr) (queries : List Query)
  | update (tableJoins : Bool) (hasFrom : Bool) (or : Option SqliteOnConflict)
      (selection : Option Expr) (exprs : List Expr) (queries : List Query)
  /-- `fromJoins` tells for each table of the FROM list whether it has joins. -/
  | delete (hasTables : Bool) (hasUsing : Bool) (fromJoins : List Bool)
      (selection : Option Expr) (exprs : List Expr) (queries : List Query)
  | merge (exprs : List Expr) (queries : List Query)
  | plain (kind : StatementKind) (exprs : List Expr) (queries : List Query)

end

def Query.body : Query → SetExpr
  | .mk _ body _ _ => body

/-! ## The expressions below a node -/

mutual

/-- What `visit_expressions` reaches from an expression, itself first. -/
def Expr.visit : Expr → List Expr
  | .identifier ident => [.identifier ident]
  | .compoundIdentifier parts => [.compoundIdentifier parts]
  | .value value => [.value value]
  | .nested expr => .nested expr :: expr.visit
  | .unaryOp op expr => .unaryOp op expr :: expr.visit
  | .binaryOp left op right => .binaryOp left op right :: (left.visit ++ right.visit)
  | .isTrue expr => .isTrue expr :: expr.visit
  | .isNotTrue expr => .isNotTrue expr :: expr.visit
  | .isFalse expr => .isFalse expr :: expr.visit
  | .isNotFalse expr => .isNotFalse expr :: expr.visit
  | .isNull expr => .isNull expr :: expr.visit
  | .isNotNull expr => .isNotNull expr :: expr.visit
  | .isDistinctFrom left right => .isDistinctFrom left right :: (left.visit ++ right.visit)
  | .isNotDistinctFrom left right => .isNotDistinctFrom left right :: (left.visit ++ right.visit)
  | .inList expr list negated => .inList expr list negated :: (expr.visit ++ visitExprs list)
  | .between expr negated low high =>
    .between expr negated low high :: (expr.visit ++ low.visit ++ high.visit)
  | .like negated any expr pattern escapeChar =>
    .like negated any expr pattern escapeChar :: (expr.visit ++ pattern.visit)
  | .iLike negated any expr pattern escapeChar =>
    .iLike negated any expr pattern escapeChar :: (expr.visit ++ pattern.visit)
  | .inSubquery expr query negated =>
    .inSubquery expr query negated :: (expr.visit ++ query.visit)
  | .exists query negated => .exists query negated :: query.visit
  | .subquery query => .subquery query :: query.visit
  | .function name exprs queries =>
    .function name exprs queries :: (visitExprs exprs ++ visitQueries queries)
  | .other label exprs queries =>
    .other label exprs queries :: (visitExprs exprs ++ visitQueries queries)

def Query.visit : Query → List Expr
  | .mk ctes body _ exprs => visitQueries ctes ++ body.visit ++ visitExprs exprs

def SetExpr.visit : SetExpr → List Expr
  | .select _ exprs queries => visitExprs exprs ++ visitQueries queries
  | .query query => query.visit
  | .setOperation left right => left.visit ++ right.visit
  | .insert statement => statement.visit
  | .update statement => statement.visit
  | .delete statement => statement.visit
  | .merge statement => statement.visit
  | .values exprs => visitExprs exprs
  | .table => []

def Statement.visit : Statement → List Expr
  | .query query => query.visit
  | .explain _ statement => statement.visit
  | .insert _ _ _ _ source exprs queries =>
    visitSource source ++ visitExprs exprs ++ visitQueries queries
  | .update _ _ _ selection exprs queries =>
    visitSelection selection ++ visitExprs exprs ++ visitQueries queries
  | .delete _ _ _ selection exprs queries =>
    visitSelection selection ++ visitExprs exprs ++ visitQueries queries
  | .merge exprs queries => visitExprs exprs ++ visitQueries queries
  | .plain _ exprs queries => visitExprs exprs ++ visitQueries queries

def visitExprs : List Expr → List Expr
  | [] => []
  | expr :: exprs => expr.visit ++ visitExprs exprs

def visitQueries : List Query → List Expr
  | [] => []
  | query :: queries => query.visit ++ visitQueries queries

def visitSelection : Option Expr → List Expr
  | none => []
  | some expr => expr.visit

def visitSource : Option Query → List Expr
  | none => []
  | some query => query.visit

end

/-- The parser; `none` is a parse error. -/
abbrev Parser := SqlparserDialect → Str → Option (List Statement)

end Dbx.Source
