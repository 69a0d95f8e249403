import Dbx.Source.SqlRisk

/-!
# Parentheses in a filter

`predicateIsObviouslyUnbounded` looks through parentheses around a predicate and around most
operands, but the equality of the two sides of a comparison is tested on the sides as they
are written, and no test looks at parentheses inside an operand. An expression and its form
without parentheses (`bare`) get the same verdict where the operands that are compared hold
none; `x = x` and `x = (x)` get different ones.
-/
namespace Dbx.Guarantees.RedundantParentheses

open Dbx.Source Dbx.Lib.Text

/-! ## Expressions without parentheses -/

mutual

def bare : Expr → Expr
  | .identifier ident => .identifier ident
  | .compoundIdentifier parts => .compoundIdentifier parts
  | .value value => .value value
  | .nested expr => bare expr
  | .unaryOp op expr => .unaryOp op (bare expr)
  | .binaryOp left op right => .binaryOp (bare left) op (bare right)
  | .isTrue expr => .isTrue (bare expr)
  | .isNotTrue expr => .isNotTrue (bare expr)
  | .isFalse expr => .isFalse (bare expr)
  | .isNotFalse expr => .isNotFalse (bare expr)
  | .isNull expr => .isNull (bare expr)
  | .isNotNull expr => .isNotNull (bare expr)
  | .isDistinctFrom left right => .isDistinctFrom (bare left) (bare right)
  | .isNotDistinctFrom left right => .isNotDistinctFrom (bare left) (bare right)
  | .inList expr list negated => .inList (bare expr) (bareExprs list) negated
  | .between expr negated low high => .between (bare expr) negated (bare low) (bare high)
  | .like negated any expr pattern escape => .like negated any (bare expr) (bare pattern) escape
  | .iLike negated any expr pattern escape => .iLike negated any (bare expr) (bare pattern) escape
  | .inSubquery expr query negated => .inSubquery (bare expr) (bareQuery query) negated
  | .exists query negated => .exists (bareQuery query) negated
  | .subquery query => .subquery (bareQuery query)
  | .function name exprs queries => .function name (bareExprs exprs) (bareQueries queries)
  | .other label exprs queries => .other label (bareExprs exprs) (bareQueries queries)

def bareQuery : Query → Query
  | .mk ctes body hasLocks exprs =>
    .mk (bareQueries ctes) (bareSetExpr body) hasLocks (bareExprs exprs)

def bareSetExpr : SetExpr → SetExpr
  | .select hasInto exprs queries => .select hasInto (bareExprs exprs) (bareQueries queries)
  | .query query => .query (bareQuery query)
  | .setOperation left right => .setOperation (bareSetExpr left) (bareSetExpr right)
  | .insert statement => .insert (bareStatement statement)
  | .update statement => .update (bareStatement statement)
  | .delete statement => .delete (bareStatement statement)
  | .merge statement => .merge (bareStatement statement)
  | .values exprs => .values (bareExprs exprs)
  | .table => .table

def bareStatement : Statement → Statement
  | .query query => .query (bareQuery query)
  | .explain analyze statement => .explain analyze (bareStatement statement)
  | .insert replaceInto overwrite or on source exprs queries =>
    .insert replaceInto overwrite or on (bareSource source) (bareExprs exprs) (bareQueries queries)
  | .update tableJoins hasFrom or selection exprs queries =>
    .update tableJoins hasFrom or (bareSelection selection) (bareExprs exprs) (bareQueries queries)
  | .delete hasTables hasUsing fromJoins selection exprs queries =>
    .delete hasTables hasUsing fromJoins (bareSelection selection) (bareExprs exprs)
      (bareQueries queries)
  | .merge exprs queries => .merge (bareExprs exprs) (bareQueries queries)
  | .plain kind exprs queries => .plain kind (bareExprs exprs) (bareQueries queries)

def bareExprs : List Expr → List Expr
  | [] => []
  | expr :: exprs => bare expr :: bareExprs exprs

def bareQueries : List Query → List Query
  | [] => []
  | query :: queries => bareQuery query :: bareQueries queries

def bareSelection : Option Expr → Option Expr
  | none => none
  | some expr => some (bare expr)

def bareSource : Option Query → Option Query
  | none => none
  | some query => some (bareQuery query)

end

theorem bareExprs_eq_map (exprs : List Expr) : bareExprs exprs = exprs.map bare := by
  induction exprs with
  | nil => rfl
  | cons expr exprs ih => rw [bareExprs, ih, List.map_cons]

/-! ## What a visit finds -/

/-- A test of single nodes that does not see parentheses. -/
structure SeesNoParens (p : Expr → Bool) : Prop where
  nested : ∀ expr, p (.nested expr) = false
  bare : ∀ expr, (∀ inner, expr ≠ .nested inner) → p (bare expr) = p expr

variable {expr : Expr}

section Visit

variable {p : Expr → Bool}

theorem any_append_congr {xs xs' ys ys' : List Expr} (first : xs'.any p = xs.any p)
    (second : ys'.any p = ys.any p) : (xs' ++ ys').any p = (xs ++ ys).any p := by
  rw [List.any_append, List.any_append, first, second]

variable (sees : SeesNoParens p)
include sees

/-- A node that is no pair of parentheses, with what stands below it. -/
theorem any_node_bare (outer : ∀ inner, expr ≠ .nested inner) {below below' : List Expr}
    (same : below'.any p = below.any p) : (expr :: below).any p = (bare expr :: below').any p := by
  rw [List.any_cons, List.any_cons, sees.bare expr outer, same]

mutual

theorem any_visit_bare (expr : Expr) : (bare expr).visit.any p = expr.visit.any p := by
  match expr with
  | .nested inner =>
    rw [bare, Expr.visit, List.any_cons, sees.nested, Bool.false_or]
    exact any_visit_bare inner
  | .identifier _ | .compoundIdentifier _ | .value _ => rfl
  | .unaryOp _ inner | .isTrue inner | .isNotTrue inner | .isFalse inner | .isNotFalse inner
  | .isNull inner | .isNotNull inner =>
    exact .symm (any_node_bare sees (by simp) (any_visit_bare inner))
  | .binaryOp left _ right | .isDistinctFrom left right | .isNotDistinctFrom left right
  | .like _ _ left right _ | .iLike _ _ left right _ =>
    refine .symm (any_node_bare sees (by simp) ?_)
    exact any_append_congr (any_visit_bare left) (any_visit_bare right)
  | .inList inner list _ =>
    refine .symm (any_node_bare sees (by simp) ?_)
    exact any_append_congr (any_visit_bare inner) (any_visitExprs_bare list)
  | .between inner _ low high =>
    refine .symm (any_node_bare sees (by simp) ?_)
    exact any_append_congr (any_append_congr (any_visit_bare inner) (any_visit_bare low))
      (any_visit_bare high)
  | .inSubquery inner query _ =>
    refine .symm (any_node_bare sees (by simp) ?_)
    exact any_append_congr (any_visit_bare inner) (any_visitQuery_bare query)
  | .exists query _ | .subquery query =>
    exact .symm (any_node_bare sees (by simp) (any_visitQuery_bare query))
  | .function _ exprs queries | .other _ exprs queries =>
    refine .symm (any_node_bare sees (by simp) ?_)
    exact any_append_congr (any_visitExprs_bare exprs) (any_visitQueries_bare queries)

theorem any_visitQuery_bare (query : Query) :
    (bareQuery query).visit.any p = query.visit.any p := by
  match query with
  | .mk ctes body _ exprs =>
    exact any_append_congr (any_append_congr (any_visitQueries_bare ctes)
      (any_visitSetExpr_bare body)) (any_visitExprs_bare exprs)

theorem any_visitSetExpr_bare (body : SetExpr) :
    (bareSetExpr body).visit.any p = body.visit.any p := by
  match body with
  | .select _ exprs queries =>
    exact any_append_congr (any_visitExprs_bare exprs) (any_visitQueries_bare queries)
  | .query query => exact any_visitQuery_bare query
  | .setOperation left right =>
    exact any_append_congr (any_visitSetExpr_bare left) (any_visitSetExpr_bare right)
  | .insert statement | .update statement | .delete statement | .merge statement =>
    exact any_visitStatement_bare statement
  | .values exprs => exact any_visitExprs_bare exprs
  | .table => rfl

theorem any_visitStatement_bare (statement : Statement) :
    (bareStatement statement).visit.any p = statement.visit.any p := by
  match statement with
  | .query query => exact any_visitQuery_bare query
  | .explain _ statement => exact any_visitStatement_bare statement
  | .insert _ _ _ _ source exprs queries =>
    exact any_append_congr (any_append_congr (any_visitSource_bare source)
      (any_visitExprs_bare exprs)) (any_visitQueries_bare queries)
  | .update _ _ _ selection exprs queries | .delete _ _ _ selection exprs queries =>
    exact any_append_congr (any_append_congr (any_visitSelection_bare selection)
      (any_visitExprs_bare exprs)) (any_visitQueries_bare queries)
  | .merge exprs queries | .plain _ exprs queries =>
    exact any_append_congr (any_visitExprs_bare exprs) (any_visitQueries_bare queries)

theorem any_visitExprs_bare (exprs : List Expr) :
    (visitExprs (bareExprs exprs)).any p = (visitExprs exprs).any p := by
  match exprs with
  | [] => rfl
  | expr :: exprs => exact any_append_congr (any_visit_bare expr) (any_visitExprs_bare exprs)

theorem any_visitQueries_bare (queries : List Query) :
    (visitQueries (bareQueries queries)).any p = (visitQueries queries).any p := by
  match queries with
  | [] => rfl
  | query :: queries =>
    exact any_append_congr (any_visitQuery_bare query) (any_visitQueries_bare queries)

theorem any_visitSelection_bare (selection : Option Expr) :
    (visitSelection (bareSelection selection)).any p = (visitSelection selection).any p := by
  match selection with
  | none => rfl
  | some expr => exact any_visit_bare expr

theorem any_visitSource_bare (source : Option Query) :
    (visitSource (bareSource source)).any p = (visitSource source).any p := by
  match source with
  | none => rfl
  | some query => exact any_visitQuery_bare query

end

end Visit

theorem exprContainsColumnReference_bare (expr : Expr) :
    exprContainsColumnReference (bare expr) = exprContainsColumnReference expr := by
  apply any_visit_bare
  constructor
  · intro inner
    rfl
  · intro expr outer
    cases expr with
    | nested inner => exact absurd rfl (outer inner)
    | _ => rfl

theorem exprContainsSubquery_bare (expr : Expr) :
    exprContainsSubquery (bare expr) = exprContainsSubquery expr := by
  apply any_visit_bare
  constructor
  · intro inner
    rfl
  · intro expr outer
    cases expr with
    | nested inner => exact absurd rfl (outer inner)
    | _ => rfl

/-! ## Operands -/

theorem stripNestedExpr_ne_nested (expr inner : Expr) : stripNestedExpr expr ≠ .nested inner := by
  fun_induction stripNestedExpr expr with
  | case1 _ ih => exact ih
  | case2 expr outer => exact outer inner

theorem bare_stripNestedExpr (expr : Expr) : bare (stripNestedExpr expr) = bare expr := by
  fun_induction stripNestedExpr expr with
  | case1 inner ih => rw [ih, bare]
  | case2 => rfl

theorem stripNestedExpr_of_outer (outer : ∀ inner, expr ≠ .nested inner) :
    stripNestedExpr expr = expr := by
  cases expr with
  | nested inner => exact absurd rfl (outer inner)
  | _ => rfl

theorem bare_ne_nested (expr inner : Expr) : bare expr ≠ .nested inner := by
  rw [← bare_stripNestedExpr]
  have outer := stripNestedExpr_ne_nested expr
  cases shape : stripNestedExpr expr with
  | nested other => exact absurd shape (outer other)
  | _ => intro same; cases same

theorem stripNestedExpr_bare (expr : Expr) : stripNestedExpr (bare expr) = bare expr :=
  stripNestedExpr_of_outer (bare_ne_nested expr)

/-- No parentheses stand inside the operand; they may stand around it. -/
def Plain (expr : Expr) : Prop := bare expr = stripNestedExpr expr

theorem Plain.strip_bare (plain : Plain expr) :
    stripNestedExpr (bare expr) = stripNestedExpr expr := by
  rw [stripNestedExpr_bare, plain]

/-- The operands that the verdict compares with one another hold no parentheses: inside them,
and for a comparison around them neither. -/
def Comparable : Expr → Prop
  | .nested expr | .unaryOp _ expr | .isTrue expr | .isNotTrue expr | .isFalse expr
  | .isNotFalse expr => Comparable expr
  | .binaryOp left op right =>
    if isComparisonOperator op then bare left = left ∧ bare right = right
    else Comparable left ∧ Comparable right
  | .isNull expr | .isNotNull expr => Plain expr
  | .isDistinctFrom left right | .isNotDistinctFrom left right => Plain left ∧ Plain right
  | .inList expr list _ => Plain expr ∧ ∀ item ∈ list, Plain item
  | .between expr _ low high => Plain expr ∧ Plain low ∧ Plain high
  | _ => True

/-! ## The checks of a disjunction -/

theorem orContainsConjunctiveBranch_bare (expr : Expr) :
    orContainsConjunctiveBranch (bare expr) = orContainsConjunctiveBranch expr := by
  fun_induction orContainsConjunctiveBranch expr with
  | case1 inner ih => exact ih
  | case2 left right ih ih' =>
    show (orContainsConjunctiveBranch (bare left) || orContainsConjunctiveBranch (bare right)) = _
    rw [ih, ih']
  | case3 => rfl
  | case4 expr notNested notOr notAnd =>
    cases expr with
    | nested inner => exact absurd rfl (notNested inner)
    | binaryOp left op right =>
      cases op with
      | or => exact absurd rfl (notOr left right)
      | and => exact absurd rfl (notAnd left right)
      | _ => rfl
    | _ => rfl

/-- The branches of a disjunction without parentheses are its branches without them. -/
theorem orBranches_bare (expr : Expr) : orBranches (bare expr) = (orBranches expr).map bare := by
  fun_induction orBranches expr with
  | case1 inner ih => exact ih
  | case2 left right ih ih' =>
    show orBranches (bare left) ++ orBranches (bare right) = _
    rw [ih, ih', List.map_append]
  | case3 expr notNested notOr =>
    cases expr with
    | nested inner => exact absurd rfl (notNested inner)
    | binaryOp left op right =>
      cases op with
      | or => exact absurd rfl (notOr left right)
      | _ => rfl
    | _ => rfl

theorem comparable_orBranches (comparable : Comparable expr) :
    ∀ branch ∈ orBranches expr, Comparable branch := by
  fun_induction orBranches expr with
  | case1 inner ih => exact ih comparable
  | case2 left right ih ih' =>
    intro branch member
    obtain inLeft | inRight := List.mem_append.mp member
    · exact ih comparable.1 branch inLeft
    · exact ih' comparable.2 branch inRight
  | case3 expr =>
    intro branch member
    rw [List.mem_singleton.mp member]
    exact comparable

/-- A check that each comparable branch passes in the same way without parentheses. -/
theorem filterMap_branches_bare {α : Type} {check : Expr → Option α}
    (same : ∀ branch, Comparable branch → check (bare branch) = check branch)
    (comparable : Comparable expr) :
    (orBranches (bare expr)).filterMap check = (orBranches expr).filterMap check := by
  rw [orBranches_bare, List.filterMap_map]
  apply List.filterMap_congr
  intro branch member
  exact same branch (comparable_orBranches comparable branch member)

/-- A check that looks through parentheses and counts negations is the same without parentheses
if it is so for the predicates below them. -/
theorem check_bare {α : Type} {check : Bool → Expr → Option α}
    (nested : ∀ negated inner, check negated (.nested inner) = check negated inner)
    (not : ∀ negated inner, check negated (.unaryOp .not inner) = check (!negated) inner)
    (leaf : ∀ negated expr, (∀ inner, expr ≠ .nested inner) → (∀ inner, expr ≠ .unaryOp .not inner) →
      Comparable expr → check negated (bare expr) = check negated expr)
    {negated : Bool} {expr : Expr} (comparable : Comparable expr) :
    check negated (bare expr) = check negated expr := by
  induction negated, expr using nullCheckWithNegation.induct with
  | case1 negated inner ih =>
    rw [bare, nested]
    exact ih comparable
  | case2 negated inner ih =>
    rw [bare, not, not]
    exact ih comparable
  | case3 | case4 => exact leaf _ _ nofun nofun comparable
  | case5 _ _ notNested notNot => exact leaf _ _ notNested notNot comparable

theorem nullCheckWithNegation_bare {negated : Bool} (expr : Expr) (comparable : Comparable expr) :
    nullCheckWithNegation negated (bare expr) = nullCheckWithNegation negated expr := by
  apply check_bare (fun _ _ => rfl) (fun _ _ => rfl) _ comparable
  intro negated expr notNested notNot comparable
  cases expr with
  | nested => exact absurd rfl (notNested _)
  | unaryOp op => cases op <;> first | rfl | exact absurd rfl (notNot _)
  | isNull inner =>
    show some (stripNestedExpr (bare inner), negated) = _
    rw [Plain.strip_bare comparable]
    rfl
  | isNotNull inner =>
    show some (stripNestedExpr (bare inner), !negated) = _
    rw [Plain.strip_bare comparable]
    rfl
  | _ => rfl

theorem betweenCheck_bare {negated : Bool} (expr : Expr) (comparable : Comparable expr) :
    betweenCheck negated (bare expr) = betweenCheck negated expr := by
  apply check_bare (fun _ _ => rfl) (fun _ _ => rfl) _ comparable
  intro negated expr notNested notNot comparable
  cases expr with
  | nested => exact absurd rfl (notNested _)
  | unaryOp op => cases op <;> first | rfl | exact absurd rfl (notNot _)
  | between inner own low high =>
    obtain ⟨plain, plainLow, plainHigh⟩ := comparable
    simp only [bare, betweenCheck, exprContainsColumnReference_bare, plain.strip_bare,
      plainLow.strip_bare, plainHigh.strip_bare]
  | _ => rfl

theorem comparisonCheck_bare {tables : ExprTables} {negated : Bool} (expr : Expr) (comparable : Comparable expr) :
    comparisonCheck tables negated (bare expr) = comparisonCheck tables negated expr := by
  apply check_bare (fun _ _ => rfl) (fun _ _ => rfl) _ comparable
  intro negated expr notNested notNot comparable
  cases expr with
  | nested => exact absurd rfl (notNested _)
  | unaryOp op => cases op <;> first | rfl | exact absurd rfl (notNot _)
  | binaryOp left op right =>
    cases compares : isComparisonOperator op with
    | true =>
      rw [Comparable, if_pos compares] at comparable
      rw [bare, comparable.1, comparable.2]
    | false =>
      have none : PredicateComparisonOperator.ofBinary op = none := by
        cases op <;> first | rfl | cases compares
      simp [bare, comparisonCheck, none]
  | _ => rfl

theorem likePatternMatchesAll_bare (pattern : Expr) :
    likePatternMatchesAll (bare pattern) = likePatternMatchesAll pattern := by
  unfold likePatternMatchesAll
  rw [stripNestedExpr_bare, ← bare_stripNestedExpr]
  have outer := stripNestedExpr_ne_nested pattern
  cases shape : stripNestedExpr pattern with
  | nested inner => exact absurd shape (outer inner)
  | _ => rfl

section Tables

variable (tables : ExprTables) [DecidableEq Expr]

theorem inListCheck_bare {negated : Bool} (expr : Expr) (comparable : Comparable expr) :
    inListCheck tables negated (bare expr) = inListCheck tables negated expr := by
  apply check_bare (fun _ _ => rfl) (fun _ _ => rfl) _ comparable
  intro negated expr notNested notNot comparable
  cases expr with
  | nested => exact absurd rfl (notNested _)
  | unaryOp op => cases op <;> first | rfl | exact absurd rfl (notNot _)
  | inList inner list own =>
    obtain ⟨plain, items⟩ := comparable
    have stripped : (list.map bare).map stripNestedExpr = list.map stripNestedExpr := by
      rw [List.map_map]
      apply List.map_congr_left
      intro item member
      exact (items item member).strip_bare
    simp [bare, inListCheck, exprContainsColumnReference_bare, plain.strip_bare, bareExprs_eq_map,
      stripped]
  | _ => rfl

/-- The five tests of a disjunction. -/
def orTests (expr : Expr) : Bool :=
  orContainsConjunctiveBranch expr || orContainsComplementaryNullChecks expr ||
    orContainsComplementaryComparisons tables expr || orContainsComplementaryInLists tables expr ||
    orContainsComplementaryBetweenChecks expr

theorem orTests_bare (comparable : Comparable expr) :
    orTests tables (bare expr) = orTests tables expr := by
  unfold orTests orContainsComplementaryNullChecks orContainsComplementaryComparisons
    orContainsComplementaryInLists orContainsComplementaryBetweenChecks
  rw [orContainsConjunctiveBranch_bare,
    filterMap_branches_bare nullCheckWithNegation_bare comparable,
    filterMap_branches_bare comparisonCheck_bare comparable,
    filterMap_branches_bare (inListCheck_bare tables) comparable,
    filterMap_branches_bare betweenCheck_bare comparable]

/-! ## The verdict -/

theorem unbounded_nested (inner : Expr) : predicateIsObviouslyUnbounded tables (.nested inner) =
      predicateIsObviouslyUnbounded tables inner := by
  have subquery : exprContainsSubquery (.nested inner) = exprContainsSubquery inner := rfl
  have column : exprContainsColumnReference (.nested inner) = exprContainsColumnReference inner :=
    rfl
  rw [predicateIsObviouslyUnbounded.eq_def tables (.nested inner), subquery, column]
  dsimp only
  rw [predicateIsObviouslyUnbounded.eq_def tables inner]
  cases exprContainsSubquery inner <;> cases exprContainsColumnReference inner <;> rfl

mutual

theorem unbounded_bare (expr : Expr) (comparable : Comparable expr) :
    predicateIsObviouslyUnbounded tables (bare expr) =
      predicateIsObviouslyUnbounded tables expr := by
  have expand := predicateIsObviouslyUnbounded.eq_def tables (bare expr)
  rw [exprContainsSubquery_bare, exprContainsColumnReference_bare] at expand
  match expr with
  | .nested inner =>
    rw [unbounded_nested]
    exact unbounded_bare inner comparable
  | .unaryOp .not inner =>
    have below := false_bare inner comparable
    rw [expand]
    dsimp only [bare]
    rw [below, ← predicateIsObviouslyUnbounded]
  | .isTrue inner | .isNotFalse inner =>
    have below := unbounded_bare inner comparable
    rw [expand]
    dsimp only [bare]
    rw [below, ← predicateIsObviouslyUnbounded]
  | .binaryOp left .and right =>
    have below := unbounded_bare left comparable.1
    have below' := unbounded_bare right comparable.2
    rw [expand]
    dsimp only [bare]
    rw [below, below', ← predicateIsObviouslyUnbounded]
  | .binaryOp left .or right =>
    have below := unbounded_bare left comparable.1
    have below' := unbounded_bare right comparable.2
    have tests := orTests_bare tables comparable
    unfold orTests at tests
    rw [expand]
    dsimp only [bare] at tests ⊢
    rw [below, below', tests, ← predicateIsObviouslyUnbounded]
  | .isNotDistinctFrom left right =>
    rw [expand]
    dsimp only [bare]
    rw [comparable.1.strip_bare, comparable.2.strip_bare, ← predicateIsObviouslyUnbounded]
  | .like false false inner pattern none | .iLike false false inner pattern none =>
    rw [expand]
    dsimp only [bare]
    rw [exprContainsColumnReference_bare, likePatternMatchesAll_bare,
      ← predicateIsObviouslyUnbounded]
  | .binaryOp left .eq right | .binaryOp left .notEq right | .binaryOp left .gt right
  | .binaryOp left .gtEq right | .binaryOp left .lt right | .binaryOp left .ltEq right
  | .binaryOp left .spaceship right =>
    obtain ⟨noneLeft, noneRight⟩ := comparable
    rw [bare, noneLeft, noneRight]
  | .identifier _ | .compoundIdentifier _ | .value _ => rfl
  -- No test looks at these predicates.
  | .binaryOp _ (.other _) _ | .unaryOp (.other _) _ | .isNotTrue _ | .isFalse _ | .isNull _
  | .isNotNull _ | .isDistinctFrom .. | .inList .. | .between .. | .inSubquery .. | .exists ..
  | .subquery _ | .function .. | .other .. | .like true _ _ _ _ | .like false true _ _ _
  | .like false false _ _ (some _) | .iLike true _ _ _ _ | .iLike false true _ _ _
  | .iLike false false _ _ (some _) =>
    rw [expand, predicateIsObviouslyUnbounded.eq_def]
    rfl

theorem false_bare (expr : Expr) (comparable : Comparable expr) :
    predicateIsObviouslyFalse tables (bare expr) = predicateIsObviouslyFalse tables expr := by
  match expr with
  | .nested inner =>
    exact false_bare inner comparable
  | .unaryOp .not inner | .isFalse inner | .isNotTrue inner =>
    have below := unbounded_bare inner comparable
    rw [bare, predicateIsObviouslyFalse, predicateIsObviouslyFalse, below]
  | .binaryOp left .and right | .binaryOp left .or right =>
    have below := false_bare left comparable.1
    have below' := false_bare right comparable.2
    rw [bare, predicateIsObviouslyFalse, predicateIsObviouslyFalse, below, below']
  | .isDistinctFrom left right =>
    rw [bare, predicateIsObviouslyFalse, predicateIsObviouslyFalse, comparable.1.strip_bare,
      comparable.2.strip_bare]
  | .binaryOp left .eq right | .binaryOp left .notEq right | .binaryOp left .gt right
  | .binaryOp left .gtEq right | .binaryOp left .lt right | .binaryOp left .ltEq right
  | .binaryOp left .spaceship right =>
    obtain ⟨noneLeft, noneRight⟩ := comparable
    rw [bare, noneLeft, noneRight]
  | .identifier _ | .compoundIdentifier _ | .value _ => rfl
  | .binaryOp _ (.other _) _ | .unaryOp (.other _) _ | .isTrue _ | .isNotFalse _ | .isNull _
  | .isNotNull _ | .isNotDistinctFrom .. | .inList .. | .between .. | .inSubquery .. | .exists ..
  | .subquery _ | .function .. | .other .. | .like .. | .iLike .. =>
    rfl

end

end Tables

section Examples

open scoped Classical

def noTables : ExprTables :=
  ⟨fun _ _ => true, Nat, fun _ => none, fun _ _ => false, fun _ _ => false, fun _ => false⟩

def column (name : String) : Expr := .identifier ⟨name.toList, none⟩

end Examples

end Dbx.Guarantees.RedundantParentheses
