import Dbx.Source.SqlRisk

/-!
# Which queries the read-only classification sees

`classifyStatement` looks into the query of a statement, its common table expressions,
the operands of set operations and parenthesised bodies, at any depth (`Query.followed`).
A statement is read only exactly if it shows or explains something without running it, or
no query on these paths writes, selects into a table or locks rows, and no known function
with side effects is called (`classifyStatement_readOnly_iff`).

Queries in derived tables and in expressions are not followed, and the statement below an
EXPLAIN that does not run it is not looked at (`readOnly_hides_queries`).
-/
namespace Dbx.Guarantees.NestedQueries

open Dbx.Source Dbx.Lib.Text List

/-! ## Query nodes -/

mutual

/-- Every query node of an expression. -/
def exprQueries : Expr → List Query
  | .identifier _ | .compoundIdentifier _ | .value _ => []
  | .nested expr | .unaryOp _ expr | .isTrue expr | .isNotTrue expr | .isFalse expr
  | .isNotFalse expr | .isNull expr | .isNotNull expr => exprQueries expr
  | .binaryOp left _ right | .isDistinctFrom left right | .isNotDistinctFrom left right =>
    exprQueries left ++ exprQueries right
  | .inList expr list _ => exprQueries expr ++ exprsQueries list
  | .between expr _ low high => exprQueries expr ++ exprQueries low ++ exprQueries high
  | .like _ _ expr pattern _ | .iLike _ _ expr pattern _ => exprQueries expr ++ exprQueries pattern
  | .inSubquery expr query _ => exprQueries expr ++ queryNodes query
  | .exists query _ | .subquery query => queryNodes query
  | .function _ exprs queries | .other _ exprs queries =>
    exprsQueries exprs ++ queriesNodes queries

/-- The query and every query node below it. -/
def queryNodes : Query → List Query
  | .mk ctes body hasLocks exprs =>
    .mk ctes body hasLocks exprs :: (queriesNodes ctes ++ setExprNodes body ++ exprsQueries exprs)

def setExprNodes : SetExpr → List Query
  | .select _ exprs queries => exprsQueries exprs ++ queriesNodes queries
  | .query query => queryNodes query
  | .setOperation left right => setExprNodes left ++ setExprNodes right
  | .insert statement | .update statement | .delete statement | .merge statement =>
    statementNodes statement
  | .values exprs => exprsQueries exprs
  | .table => []

def statementNodes : Statement → List Query
  | .query query => queryNodes query
  | .explain _ statement => statementNodes statement
  | .insert _ _ _ _ source exprs queries =>
    sourceNodes source ++ exprsQueries exprs ++ queriesNodes queries
  | .update _ _ _ selection exprs queries | .delete _ _ _ selection exprs queries =>
    selectionNodes selection ++ exprsQueries exprs ++ queriesNodes queries
  | .merge exprs queries | .plain _ exprs queries => exprsQueries exprs ++ queriesNodes queries

def exprsQueries : List Expr → List Query
  | [] => []
  | expr :: exprs => exprQueries expr ++ exprsQueries exprs

def queriesNodes : List Query → List Query
  | [] => []
  | query :: queries => queryNodes query ++ queriesNodes queries

def selectionNodes : Option Expr → List Query
  | none => []
  | some expr => exprQueries expr

def sourceNodes : Option Query → List Query
  | none => []
  | some query => queryNodes query

end

mutual

/-- The query nodes that the classification looks at. -/
def followed : Query → List Query
  | .mk ctes body hasLocks exprs =>
    .mk ctes body hasLocks exprs :: (followedAll ctes ++ followedBody body)

def followedBody : SetExpr → List Query
  | .query query => followed query
  | .setOperation left right => followedBody left ++ followedBody right
  | _ => []

def followedAll : List Query → List Query
  | [] => []
  | query :: queries => followed query ++ followedAll queries

end

section

variable (detectSelectInto : Bool)

/-- The body writes, or selects into a table, in one of the operands of its set operations. -/
def bodyWrites : SetExpr → Bool
  | .select hasInto _ _ => detectSelectInto && hasInto
  | .setOperation left right => bodyWrites left || bodyWrites right
  | .insert _ | .update _ | .delete _ | .merge _ => true
  | .query _ | .values _ | .table => false

/-- The node itself writes or locks, apart from the queries below it. -/
def nodeWrites : Query → Bool
  | .mk _ body hasLocks _ => hasLocks || bodyWrites detectSelectInto body

/-! ## What a query may be classified by -/

/-- A call of a function that is known for its side effects. -/
def isSideEffectCall : Expr → Bool
  | .function name _ _ => match name.getLast? with
    | some (some ident) => sideEffectSelectFunctions.any fun candidate =>
        eqIgnoreAsciiCase ident.value candidate.toList
    | _ => false
  | _ => false

theorem queryCallsKnownSideEffectFunction_eq (query : Query) :
    queryCallsKnownSideEffectFunction query = query.visit.any isSideEffectCall := by
  rfl

mutual

theorem followed_of_writeCapable : ∀ query : Query,
    queryIsWriteCapable detectSelectInto query = true →
    (∃ node ∈ followed query, nodeWrites detectSelectInto node = true) ∨
      query.visit.any isSideEffectCall = true
  | .mk ctes body hasLocks exprs => by
    intro capable
    simp only [queryIsWriteCapable, Bool.or_eq_true] at capable
    simp only [followed, Query.visit, any_append, Bool.or_eq_true, mem_cons,
      mem_append]
    rcases capable with ((inCtes | inBody) | locks) | call
    · obtain found | call := followed_of_anyWriteCapable ctes inCtes
      · obtain ⟨node, member, writes⟩ := found
        exact .inl ⟨node, .inr (.inl member), writes⟩
      · exact .inr (.inl (.inl call))
    · rcases followed_of_bodyWriteCapable body inBody with here | found | call
      · refine .inl ⟨_, .inl rfl, ?_⟩
        rw [nodeWrites, here, Bool.or_true]
      · obtain ⟨node, member, writes⟩ := found
        exact .inl ⟨node, .inr (.inr member), writes⟩
      · exact .inr (.inl (.inr call))
    · refine .inl ⟨_, .inl rfl, ?_⟩
      rw [nodeWrites, locks, Bool.true_or]
    · rw [queryCallsKnownSideEffectFunction_eq, Query.visit, any_append, any_append,
        Bool.or_eq_true, Bool.or_eq_true] at call
      exact .inr call

theorem followed_of_bodyWriteCapable : ∀ body : SetExpr,
    setExprIsWriteCapable detectSelectInto body = true →
    bodyWrites detectSelectInto body = true ∨
      (∃ node ∈ followedBody body, nodeWrites detectSelectInto node = true) ∨
      body.visit.any isSideEffectCall = true
  | .select hasInto exprs queries => by
    intro capable
    exact .inl capable
  | .query query => by
    intro capable
    exact .inr (followed_of_writeCapable query capable)
  | .setOperation left right => by
    intro capable
    simp only [setExprIsWriteCapable, Bool.or_eq_true] at capable
    simp only [bodyWrites, followedBody, SetExpr.visit, any_append, Bool.or_eq_true,
      mem_append]
    obtain inLeft | inRight := capable
    · rcases followed_of_bodyWriteCapable left inLeft with here | found | call
      · exact .inl (.inl here)
      · obtain ⟨node, member, writes⟩ := found
        exact .inr (.inl ⟨node, .inl member, writes⟩)
      · exact .inr (.inr (.inl call))
    · rcases followed_of_bodyWriteCapable right inRight with here | found | call
      · exact .inl (.inr here)
      · obtain ⟨node, member, writes⟩ := found
        exact .inr (.inl ⟨node, .inr member, writes⟩)
      · exact .inr (.inr (.inr call))
  | .insert _ | .update _ | .delete _ | .merge _ => fun _ => .inl rfl
  | .values _ | .table => fun capable => by simp [setExprIsWriteCapable] at capable

theorem followed_of_anyWriteCapable : ∀ queries : List Query,
    anyWriteCapable detectSelectInto queries = true →
    (∃ node ∈ followedAll queries, nodeWrites detectSelectInto node = true) ∨
      (visitQueries queries).any isSideEffectCall = true
  | [] => fun capable => by simp [anyWriteCapable] at capable
  | query :: queries => by
    intro capable
    simp only [anyWriteCapable, Bool.or_eq_true] at capable
    simp only [followedAll, visitQueries, any_append, Bool.or_eq_true, mem_append]
    obtain inFirst | inRest := capable
    · obtain found | call := followed_of_writeCapable query inFirst
      · obtain ⟨node, member, writes⟩ := found
        exact .inl ⟨node, .inl member, writes⟩
      · exact .inr (.inl call)
    · obtain found | call := followed_of_anyWriteCapable queries inRest
      · obtain ⟨node, member, writes⟩ := found
        exact .inl ⟨node, .inr member, writes⟩
      · exact .inr (.inr call)

end

mutual

theorem writeCapable_of_followed : ∀ query : Query,
    (∃ node ∈ followed query, nodeWrites detectSelectInto node = true) →
    queryIsWriteCapable detectSelectInto query = true
  | .mk ctes body hasLocks exprs => by
    intro found
    obtain ⟨node, member, writes⟩ := found
    simp only [followed, mem_cons, mem_append] at member
    simp only [queryIsWriteCapable, Bool.or_eq_true]
    rcases member with here | inCtes | inBody
    · subst here
      simp only [nodeWrites, Bool.or_eq_true] at writes
      obtain locks | writes := writes
      · exact .inl (.inr locks)
      · exact .inl (.inl (.inr (bodyWriteCapable_of_writes body writes)))
    · exact .inl (.inl (.inl (anyWriteCapable_of_followed ctes ⟨node, inCtes, writes⟩)))
    · exact .inl (.inl (.inr (bodyWriteCapable_of_followed body ⟨node, inBody, writes⟩)))

theorem bodyWriteCapable_of_writes : ∀ body : SetExpr,
    bodyWrites detectSelectInto body = true → setExprIsWriteCapable detectSelectInto body = true
  | .select _ _ _ => by
    intro writes
    exact writes
  | .query _ => fun writes => by simp [bodyWrites] at writes
  | .setOperation left right => by
    intro writes
    simp only [bodyWrites, Bool.or_eq_true] at writes
    rw [setExprIsWriteCapable, Bool.or_eq_true]
    exact writes.imp (bodyWriteCapable_of_writes left) (bodyWriteCapable_of_writes right)
  | .insert _ | .update _ | .delete _ | .merge _ => fun _ => by rw [setExprIsWriteCapable]
  | .values _ | .table => fun writes => by simp [bodyWrites] at writes

theorem bodyWriteCapable_of_followed : ∀ body : SetExpr,
    (∃ node ∈ followedBody body, nodeWrites detectSelectInto node = true) →
    setExprIsWriteCapable detectSelectInto body = true
  | .query query => by
    intro found
    exact writeCapable_of_followed query found
  | .setOperation left right => by
    intro found
    obtain ⟨node, member, writes⟩ := found
    rw [followedBody, mem_append] at member
    rw [setExprIsWriteCapable, Bool.or_eq_true]
    obtain inLeft | inRight := member
    · exact .inl (bodyWriteCapable_of_followed left ⟨node, inLeft, writes⟩)
    · exact .inr (bodyWriteCapable_of_followed right ⟨node, inRight, writes⟩)
  | .select _ _ _ | .insert _ | .update _ | .delete _ | .merge _ | .values _ | .table =>
    fun found => by simp [followedBody] at found

theorem anyWriteCapable_of_followed : ∀ queries : List Query,
    (∃ node ∈ followedAll queries, nodeWrites detectSelectInto node = true) →
    anyWriteCapable detectSelectInto queries = true
  | [] => fun found => by simp [followedAll] at found
  | query :: queries => by
    intro found
    obtain ⟨node, member, writes⟩ := found
    rw [followedAll, mem_append] at member
    rw [anyWriteCapable, Bool.or_eq_true]
    obtain inFirst | inRest := member
    · exact .inl (writeCapable_of_followed query ⟨node, inFirst, writes⟩)
    · exact .inr (anyWriteCapable_of_followed queries ⟨node, inRest, writes⟩)

end

theorem queryIsWriteCapable_iff (query : Query) :
    queryIsWriteCapable detectSelectInto query = true ↔
      (∃ node ∈ followed query, nodeWrites detectSelectInto node = true) ∨
        queryCallsKnownSideEffectFunction query = true := by
  constructor
  · exact followed_of_writeCapable detectSelectInto query
  · intro reason
    obtain found | call := reason
    · exact writeCapable_of_followed detectSelectInto query found
    · cases query with
      | mk ctes body hasLocks exprs => rw [queryIsWriteCapable, call, Bool.or_true]

/-! ## The verdict on a statement -/

/-- The statement that runs below any number of `EXPLAIN ANALYZE`. -/
def executed : Statement → Statement
  | .explain true statement => executed statement
  | statement => statement

/-- The statement shows or describes something and runs no statement below it. -/
def onlyShows : Statement → Bool
  | .explain analyze _ => !analyze
  | .plain kind _ _ => kind.risk == .readOnly
  | _ => false

attribute [local simp] classifyStatement

theorem classifyStatement_executed : ∀ statement : Statement,
    classifyStatement detectSelectInto (executed statement) =
      classifyStatement detectSelectInto statement
  | .explain true statement => by
    rw [executed, classifyStatement_executed statement]
    simp
  | .explain false _ | .query _ | .insert .. | .update .. | .delete .. | .merge .. | .plain .. => by
    rw [executed]
    all_goals simp

theorem executed_ne_analyze : ∀ statement inner : Statement,
    executed statement ≠ .explain true inner
  | .explain true statement, inner => by
    exact executed_ne_analyze statement inner
  | .explain false _, _ | .query _, _ | .insert .., _ | .update .., _ | .delete .., _
  | .merge .., _ | .plain .., _ => by simp [executed]

/-- A statement is read only exactly if what it runs only shows something, or is a query
without a write, a selection into a table or a lock in any node that is followed, and
without a call of a function known for its side effects. -/
theorem classifyStatement_readOnly_iff (statement : Statement) :
    classifyStatement detectSelectInto statement = .readOnly ↔
      onlyShows (executed statement) = true ∨
        ∃ query, executed statement = .query query ∧
          (∀ node ∈ followed query, nodeWrites detectSelectInto node = false) ∧
          queryCallsKnownSideEffectFunction query = false := by
  rw [← classifyStatement_executed]
  cases ran : executed statement with
  | query query =>
    have capable := queryIsWriteCapable_iff detectSelectInto query
    constructor
    · intro readOnly
      have notCapable : ¬ queryIsWriteCapable detectSelectInto query = true := by
        intro writes
        simp [writes] at readOnly
      rw [capable] at notCapable
      refine .inr ⟨query, rfl, ?_, ?_⟩
      · intro node member
        apply Bool.eq_false_iff.mpr
        intro writes
        exact notCapable (.inl ⟨node, member, writes⟩)
      · apply Bool.eq_false_iff.mpr
        intro call
        exact notCapable (.inr call)
    · intro allowed
      obtain shows | ⟨other, same, quiet, noCall⟩ := allowed
      · simp [onlyShows] at shows
      cases same
      have notCapable : queryIsWriteCapable detectSelectInto query = false := by
        apply Bool.eq_false_iff.mpr
        intro writes
        obtain found | call := capable.mp writes
        · obtain ⟨node, member, writes⟩ := found
          exact absurd writes (by rw [quiet node member]; decide)
        · exact absurd call (by rw [noCall]; decide)
      rw [classifyStatement, notCapable]
      rfl
  | explain analyze inner =>
    cases analyze with
    | true => exact absurd ran (executed_ne_analyze statement inner)
    | false => simp [onlyShows]
  | insert | update | delete | merge | plain => simp [onlyShows]

end

/-- `SELECT … FOR UPDATE`. -/
def lockedQuery : Query := .mk [] (.select false [] []) true []

/-- A locked query in a derived table, a locked query below an expression, and an explained
locked query: each statement is read only. -/
theorem readOnly_hides_queries :
    let derived : Statement := .query (.mk [] (.select false [] [lockedQuery]) false [])
    let inExpression : Statement :=
      .query (.mk [] (.select false [.exists lockedQuery false] []) false [])
    let explained : Statement := .explain false (.query lockedQuery)
    (classifyStatement true derived = .readOnly ∧ lockedQuery ∈ statementNodes derived) ∧
    (classifyStatement true inExpression = .readOnly ∧
      lockedQuery ∈ statementNodes inExpression) ∧
    (classifyStatement true explained = .readOnly ∧ lockedQuery ∈ statementNodes explained) ∧
    nodeWrites true lockedQuery = true := by
  refine ⟨⟨rfl, ?_⟩, ⟨rfl, ?_⟩, ⟨rfl, ?_⟩, rfl⟩
  · simp [statementNodes, queryNodes, setExprNodes, exprsQueries, queriesNodes, lockedQuery]
  · simp [statementNodes, queryNodes, setExprNodes, exprsQueries, exprQueries, queriesNodes,
      lockedQuery]
  · simp [statementNodes, queryNodes, lockedQuery]

end Dbx.Guarantees.NestedQueries
