import Dbx.Source.SqlRisk

/-!
# Approval and risk classification agree

`isDangerousSqlForDatabase` finds a `SELECT … INTO` in the syntax tree,
`classifySqlRiskForDatabase` only in the text, through the statement splitter and
the tokenizer. This module shows what each statement's tree contributes to the two
verdicts, and from it exactly when they agree (`risk_agrees_iff`): a statement that
selects into a table must be visible to the text fallback, and so must every write
that a statement shows when it stands alone.

The parser and the tokenizer are arbitrary functions here.
-/
namespace Dbx.Guarantees.RiskAgreement

open Dbx.Source Dbx.Lib.Text Toolchain List Option
open Bool (or_eq_true and_eq_true)

/-! ## Selecting into a table -/

mutual

/-- A branch of the query, or of one of its common table expressions, has an INTO clause. -/
def querySelectsInto : Query → Bool
  | .mk ctes body _ _ => anySelectsInto ctes || setExprSelectsInto body

def setExprSelectsInto : SetExpr → Bool
  | .select hasInto _ _ => hasInto
  | .query query => querySelectsInto query
  | .setOperation left right => setExprSelectsInto left || setExprSelectsInto right
  | _ => false

def anySelectsInto : List Query → Bool
  | [] => false
  | query :: queries => querySelectsInto query || anySelectsInto queries

end

def statementSelectsInto : Statement → Bool
  | .query query => querySelectsInto query
  | .explain analyze statement => analyze && statementSelectsInto statement
  | _ => false

mutual

theorem queryIsWriteCapable_true : ∀ query : Query,
    queryIsWriteCapable true query = (queryIsWriteCapable false query || querySelectsInto query)
  | .mk ctes body hasLocks exprs => by
    simp only [queryIsWriteCapable, querySelectsInto]
    rw [anyWriteCapable_true ctes, setExprIsWriteCapable_true body]
    grind

theorem setExprIsWriteCapable_true : ∀ expr : SetExpr,
    setExprIsWriteCapable true expr = (setExprIsWriteCapable false expr || setExprSelectsInto expr)
  | .select hasInto _ _ => by simp [setExprIsWriteCapable, setExprSelectsInto]
  | .query query => queryIsWriteCapable_true query
  | .setOperation left right => by
    simp only [setExprIsWriteCapable, setExprSelectsInto]
    rw [setExprIsWriteCapable_true left, setExprIsWriteCapable_true right]
    grind
  | .insert _ | .update _ | .delete _ | .merge _ | .values _ | .table => by
    simp [setExprIsWriteCapable, setExprSelectsInto]

theorem anyWriteCapable_true : ∀ queries : List Query,
    anyWriteCapable true queries = (anyWriteCapable false queries || anySelectsInto queries)
  | [] => by simp [anyWriteCapable, anySelectsInto]
  | query :: queries => by
    simp only [anyWriteCapable, anySelectsInto]
    rw [queryIsWriteCapable_true query, anyWriteCapable_true queries]
    grind

end

section Statements

variable (detectSelectInto : Bool) (tables : ExprTables) [DecidableEq Expr]

mutual

/-- A nested write counts for the classification whatever the approval finds in it. -/
theorem queryIsWriteCapable_of_dangerous : ∀ query : Query,
    queryIsDangerous detectSelectInto tables query = true →
    queryIsWriteCapable detectSelectInto query = true
  | .mk ctes body hasLocks exprs => by
    intro dangerous
    simp only [queryIsDangerous, queryIsWriteCapable, Bool.or_eq_true] at dangerous ⊢
    obtain ((inCtes | inBody) | locks) | calls := dangerous
    · exact .inl (.inl (.inl (anyWriteCapable_of_dangerous ctes inCtes)))
    · exact .inl (.inl (.inr (setExprIsWriteCapable_of_dangerous body inBody)))
    · exact .inl (.inr locks)
    · exact .inr calls

theorem setExprIsWriteCapable_of_dangerous : ∀ expr : SetExpr,
    setExprIsDangerous detectSelectInto tables expr = true →
    setExprIsWriteCapable detectSelectInto expr = true
  | .select hasInto _ _ => id
  | .query query => queryIsWriteCapable_of_dangerous query
  | .setOperation left right => by
    intro dangerous
    simp only [setExprIsDangerous, setExprIsWriteCapable, Bool.or_eq_true] at dangerous ⊢
    obtain inLeft | inRight := dangerous
    · exact .inl (setExprIsWriteCapable_of_dangerous left inLeft)
    · exact .inr (setExprIsWriteCapable_of_dangerous right inRight)
  | .insert _ | .update _ | .delete _ | .merge _ => by simp [setExprIsWriteCapable]
  | .values _ | .table => by simp [setExprIsDangerous]

theorem anyWriteCapable_of_dangerous : ∀ queries : List Query,
    anyDangerous detectSelectInto tables queries = true →
    anyWriteCapable detectSelectInto queries = true
  | [] => by simp [anyDangerous]
  | query :: queries => by
    intro dangerous
    simp only [anyDangerous, anyWriteCapable, Bool.or_eq_true] at dangerous ⊢
    obtain first | later := dangerous
    · exact .inl (queryIsWriteCapable_of_dangerous query first)
    · exact .inr (anyWriteCapable_of_dangerous queries later)

end

/-- A dangerous statement is no read for a classification that sees as much of the tree. -/
theorem classifyStatement_of_dangerous (statement : Statement)
    (dangerous : statementIsDangerous detectSelectInto tables statement = true) :
    classifyStatement detectSelectInto statement ≠ .readOnly := by
  cases statement with
  | query query =>
    simp [classifyStatement, queryIsWriteCapable_of_dangerous _ _ query dangerous]
  | explain analyze statement =>
    simp only [statementIsDangerous, and_eq_true] at dangerous
    simp only [classifyStatement, dangerous.1, if_true]
    exact classifyStatement_of_dangerous statement dangerous.2
  | insert | update | delete | merge => simp [classifyStatement]
  | plain kind =>
    simp only [statementIsDangerous, and_eq_true, bne_iff_ne] at dangerous
    exact dangerous.2

mutual

theorem queryIsDangerous_of_into : ∀ query : Query, querySelectsInto query = true →
    queryIsDangerous true tables query = true
  | .mk ctes body hasLocks exprs => by
    intro into
    simp only [querySelectsInto, queryIsDangerous, Bool.or_eq_true] at into ⊢
    obtain inCtes | inBody := into
    · exact .inl (.inl (.inl (anyDangerous_of_into ctes inCtes)))
    · exact .inl (.inl (.inr (setExprIsDangerous_of_into body inBody)))

theorem setExprIsDangerous_of_into : ∀ expr : SetExpr, setExprSelectsInto expr = true →
    setExprIsDangerous true tables expr = true
  | .select hasInto _ _ => by simp [setExprSelectsInto, setExprIsDangerous]
  | .query query => queryIsDangerous_of_into query
  | .setOperation left right => by
    intro into
    simp only [setExprSelectsInto, setExprIsDangerous, Bool.or_eq_true] at into ⊢
    obtain inLeft | inRight := into
    · exact .inl (setExprIsDangerous_of_into left inLeft)
    · exact .inr (setExprIsDangerous_of_into right inRight)
  | .insert _ | .update _ | .delete _ | .merge _ | .values _ | .table => by
    simp [setExprSelectsInto]

theorem anyDangerous_of_into : ∀ queries : List Query, anySelectsInto queries = true →
    anyDangerous true tables queries = true
  | [] => by simp [anySelectsInto]
  | query :: queries => by
    intro into
    simp only [anySelectsInto, anyDangerous, Bool.or_eq_true] at into ⊢
    obtain first | later := into
    · exact .inl (queryIsDangerous_of_into query first)
    · exact .inr (anyDangerous_of_into queries later)

end

theorem statementIsDangerous_of_into (statement : Statement)
    (into : statementSelectsInto statement = true) :
    statementIsDangerous true tables statement = true := by
  cases statement with
  | query query => exact queryIsDangerous_of_into tables query into
  | explain analyze statement =>
    simp only [statementSelectsInto, statementIsDangerous, and_eq_true] at into ⊢
    exact ⟨into.1, statementIsDangerous_of_into statement into.2⟩
  | _ => simp [statementSelectsInto] at into

end Statements

/-- The two classifications of a statement differ by its INTO clauses only. -/
theorem statementSelectsInto_of_classify (statement : Statement)
    (write : classifyStatement true statement ≠ .readOnly)
    (read : classifyStatement false statement = .readOnly) :
    statementSelectsInto statement = true := by
  cases statement with
  | query query =>
    simp only [classifyStatement, queryIsWriteCapable_true query, statementSelectsInto] at *
    grind
  | explain analyze statement =>
    cases analyze with
    | false => simp [classifyStatement] at write
    | true => exact statementSelectsInto_of_classify statement write read
  | insert | update | delete | merge => simp [classifyStatement] at read
  | plain kind => exact absurd read write

/-! ## The verdicts on a text -/

theorem maxRisk_eq_readOnly (detectSelectInto : Bool) (statements : List Statement)
    (risk : SqlRisk) :
    maxRisk detectSelectInto risk statements = .readOnly ↔
      risk = .readOnly ∧
        ∀ statement ∈ statements, classifyStatement detectSelectInto statement = .readOnly := by
  induction statements generalizing risk with
  | nil => simp [maxRisk]
  | cons statement statements ih =>
    simp only [maxRisk, ih, forall_mem_cons, ← and_assoc]
    apply and_congr_left'
    cases classifyStatement detectSelectInto statement <;> cases risk <;> simp [SqlRisk.level]

variable {databaseType : DatabaseType}

theorem noRequest_of_ne (elastic : databaseType ≠ .elasticsearch)
    (easy : databaseType ≠ .easysearch) (sql : Str) :
    classifySearchEngineQueryRisk sql databaseType = none := by
  simp [classifySearchEngineQueryRisk, elastic, easy]

attribute [local simp] DatabaseType.isPostgresqlFamily

theorem noRequest_of_supports (supports : supportsSelectIntoTableCreation databaseType = true)
    {sql : Str} : classifySearchEngineQueryRisk sql databaseType = none := by
  apply noRequest_of_ne
  · rintro rfl; simp [supportsSelectIntoTableCreation] at supports
  · rintro rfl; simp [supportsSelectIntoTableCreation] at supports

variable {sql : Str} {dialect : SqlparserDialect} {statements : List Statement}

theorem noRequest_of_fallback {tokenize : Tokenizer}
    (fallback : hasDialectSpecificWrite tokenize sql databaseType = true) :
    classifySearchEngineQueryRisk sql databaseType = none := by
  simp only [hasDialectSpecificWrite, List.any_eq_true] at fallback
  obtain ⟨statement, -, write⟩ := fallback
  apply noRequest_of_ne
  · rintro rfl; simp [hasDialectSpecificWriteStatement,
      DatabaseType.isMysqlCompatible] at write
  · rintro rfl; simp [hasDialectSpecificWriteStatement, DatabaseType.isMysqlCompatible] at write

section Verdicts

variable (tools : Toolchain) (databaseType : DatabaseType)

/-- The text shows a write: as a request, to the text fallback, as a locking clause or in
the syntax trees of its statements. -/
def ShowsWrite (sql : Str) (statements : List Statement) : Prop :=
  match classifySearchEngineQueryRisk sql databaseType with
  | some risk => risk ≠ .readOnly
  | none =>
    hasDialectSpecificWrite tools.tokenize sql databaseType = true ∨
      tools.sqlContainsLockingClause sql (dialectForDatabaseType databaseType) = true ∨
      ∃ statement ∈ statements, classifyStatement false statement ≠ .readOnly

theorem parsedStatements_eq (parses : tools.parse dialect sql = some statements)
    (some : statements ≠ []) :
    tools.parsedStatements dialect sql = statements := by
  cases statements with
  | nil => exact absurd rfl some
  | cons statement rest => simp [parsedStatements, parses]

/-- A text that parses is classified as a read exactly if it shows no write. -/
theorem classify_readOnly_iff
    (parses : tools.parsedStatements (dialectForDatabaseType databaseType) sql = some statements) :
    tools.classifySqlRiskForDatabase sql databaseType = .ok .readOnly ↔
      ¬ ShowsWrite tools databaseType sql statements := by
  unfold classifySqlRiskForDatabase ShowsWrite
  cases request : classifySearchEngineQueryRisk sql databaseType with
  | some risk => cases risk <;> simp
  | none =>
    have reads := maxRisk_eq_readOnly false statements .readOnly
    simp only [true_and] at reads
    simp only [classifySqlRiskWithDatabase, parses, unparsedWrite,
      isNone_some]
    by_cases allRead : maxRisk false .readOnly statements = .readOnly
    · have noStatement := reads.mp allRead
      simp only [allRead, BEq.rfl, Bool.true_and, not_or, not_exists, not_and, not_not]
      split
      · rename_i shown
        grind
      · rename_i hidden
        simp only [or_eq_true, not_or] at hidden
        exact ⟨fun _ => ⟨hidden.1, hidden.2, noStatement⟩, fun _ => rfl⟩
    · have someWrite : ¬ ∀ statement ∈ statements, classifyStatement false statement = .readOnly :=
        fun all => allRead (reads.mpr all)
      have differs : (maxRisk false .readOnly statements == .readOnly) = false := by
        simpa using allRead
      simp only [differs, Bool.false_and, Bool.false_eq_true, if_false, Except.ok.injEq, allRead,
        false_iff, not_not]
      simp only [not_forall] at someWrite
      obtain ⟨statement, member, write⟩ := someWrite
      exact .inr (.inr ⟨statement, member, write⟩)

variable [DecidableEq Expr]

/-- A text that does not parse is dangerous only if the fallback calls it a write. -/
theorem dangerous_unparsed
    (unparsed : tools.parsedStatements (dialectForDatabaseType databaseType) sql = none)
    (dangerous : tools.isDangerousSqlForDatabase sql databaseType = true) :
    tools.classifySqlRiskForDatabase sql databaseType ≠ .ok .readOnly := by
  unfold isDangerousSqlForDatabase at dangerous
  unfold classifySqlRiskForDatabase
  cases request : classifySearchEngineQueryRisk sql databaseType with
  | some risk => cases risk <;> simp_all
  | none =>
    simp only [request, unparsed, or_eq_true] at dangerous
    simp only [classifySqlRiskWithDatabase, unparsed, fallbackIsWrite]
    simp only [Bool.or_comm (isWriteSqlForDatabase ..), or_eq_true, dangerous, if_true]
    simp

section

variable
  (parses : tools.parsedStatements (dialectForDatabaseType databaseType) sql = some statements)
include parses

/-- What the approval sees in a text that parses: a write that the classification sees, or
an INTO clause for a database in which it creates a table. -/
theorem dangerous_parsed (dangerous : tools.isDangerousSqlForDatabase sql databaseType = true) :
    ShowsWrite tools databaseType sql statements ∨
      supportsSelectIntoTableCreation databaseType = true ∧
        ∃ statement ∈ statements, statementSelectsInto statement = true := by
  unfold isDangerousSqlForDatabase at dangerous
  unfold ShowsWrite
  cases request : classifySearchEngineQueryRisk sql databaseType with
  | some risk =>
    simp only [request, beq_iff_eq] at dangerous
    simp [dangerous]
  | none =>
    simp only [request, parses, or_eq_true, and_eq_true, List.any_eq_true] at dangerous
    obtain (lock | unparsed) | ⟨statement, member, found⟩ := dangerous
    · exact .inl (.inr (.inl lock))
    · exact .inl (.inl unparsed.2)
    · have write := classifyStatement_of_dangerous _ tools.exprs statement found
      by_cases read : classifyStatement false statement = .readOnly
      · cases supports : supportsSelectIntoTableCreation databaseType with
        | false => rw [supports] at write; exact absurd read write
        | true =>
          rw [supports] at write
          exact .inr ⟨rfl, statement, member, statementSelectsInto_of_classify _ write read⟩
      · exact .inl (.inr (.inr ⟨statement, member, read⟩))

theorem dangerous_of_into {statement : Statement}
    (request : classifySearchEngineQueryRisk sql databaseType = none)
    (supports : supportsSelectIntoTableCreation databaseType = true)
    (member : statement ∈ statements) (into : statementSelectsInto statement = true) :
    tools.isDangerousSqlForDatabase sql databaseType = true := by
  unfold isDangerousSqlForDatabase
  simp only [request, parses, supports, or_eq_true, List.any_eq_true]
  exact .inr ⟨statement, member, statementIsDangerous_of_into tools.exprs statement into⟩

end

end Verdicts

/-! ## The statements of a text taken alone -/

/-- The words in the window after a run of tokens. -/
def windowAfter (words : List Str) : List Token → List Str
  | [] => words
  | .word value none :: tokens => windowAfter (pushWord words value) tokens
  | .whitespace :: tokens => windowAfter words tokens
  | _ :: tokens => windowAfter [] tokens

theorem lockingClauseFrom_append (words : List Str) (first second : List Token) :
    lockingClauseFrom words (first ++ second) =
      (lockingClauseFrom words first || lockingClauseFrom (windowAfter words first) second) := by
  fun_induction windowAfter words first with
  | case1 words => simp [lockingClauseFrom]
  | case2 words value tokens ih =>
    simp [lockingClauseFrom, ih, Bool.or_assoc]
  | case3 words tokens ih => simp [lockingClauseFrom, ih]
  | case4 words token tokens notWord notBlank ih =>
    simp only [cons_append]
    rw [lockingClauseFrom.eq_4 _ _ _ notWord notBlank, lockingClauseFrom.eq_4 _ _ _ notWord notBlank]
    exact ih

theorem windowAfter_append (words : List Str) (first second : List Token) :
    windowAfter words (first ++ second) = windowAfter (windowAfter words first) second := by
  fun_induction windowAfter words first with
  | case1 words => rfl
  | case2 words value tokens ih => simpa only [cons_append, windowAfter] using ih
  | case3 words tokens ih => simpa only [cons_append, windowAfter] using ih
  | case4 words token tokens notWord notBlank ih =>
    simp only [cons_append]
    rw [windowAfter.eq_4 _ _ _ notWord notBlank]
    exact ih

/-- What stands between two statements. -/
structure Separator (tokens : List Token) : Prop where
  starts : tokens.head? = some .semiColon
  blank : ∀ token ∈ tokens, token = .semiColon ∨ token = .whitespace

theorem windowAfter_blank {tokens : List Token}
    (blank : ∀ token ∈ tokens, token = .semiColon ∨ token = .whitespace) :
    windowAfter [] tokens = [] := by
  induction tokens with
  | nil => rfl
  | cons token tokens ih =>
    have rest := ih fun t member => blank t (mem_cons_of_mem token member)
    obtain semicolon | whitespace := blank token mem_cons_self
    · subst semicolon; simpa [windowAfter] using rest
    · subst whitespace; simpa [windowAfter] using rest

theorem Separator.windowAfter_eq {separator : List Token} (h : Separator separator)
    (words : List Str) : windowAfter words separator = [] := by
  obtain ⟨starts, blank⟩ := h
  cases separator with
  | nil => cases starts
  | cons token tokens =>
    have semicolon : token = .semiColon := by simpa using starts
    subst semicolon
    simpa [windowAfter] using windowAfter_blank fun t member =>
      blank t (mem_cons_of_mem _ member)

/-- A statement of a text: its own text, tree and tokens, and the tokens up to the next. -/
structure Part where
  text : Str
  statement : Statement
  tokens : List Token
  separator : List Token

/-- A text that parses, cut at the semicolons between its statements. -/
structure Sequence (tools : Toolchain) (dialect : SqlparserDialect) (sql : Str) where
  parts : List Part
  parses : tools.parse dialect sql = some (parts.map (·.statement))
  tokenizes : tools.tokenize dialect sql = some (parts.flatMap fun part =>
    part.tokens ++ part.separator)
  separated : ∀ part ∈ parts.dropLast, Separator part.separator
  parsesAlone : ∀ part ∈ parts, tools.parse dialect part.text = some [part.statement]
  tokenizesAlone : ∀ part ∈ parts, tools.tokenize dialect part.text = some part.tokens

variable {part : Part}

/-- A locking clause of one statement is found in the whole text. -/
theorem lockingClauseFrom_parts {parts : List Part}
    (separated : ∀ part ∈ parts.dropLast, Separator part.separator) (member : part ∈ parts)
    (locks : lockingClauseFrom [] part.tokens = true) :
    lockingClauseFrom [] (parts.flatMap fun part => part.tokens ++ part.separator) = true := by
  induction parts with
  | nil => cases member
  | cons head rest ih =>
    simp only [flatMap_cons, lockingClauseFrom_append, or_eq_true]
    obtain isHead | inRest := mem_cons.mp member
    · exact .inl (.inl (isHead ▸ locks))
    right
    have last : rest ≠ [] := ne_nil_of_mem inRest
    rw [dropLast_cons_of_ne_nil last] at separated
    have ends : windowAfter [] (head.tokens ++ head.separator) = [] := by
      rw [windowAfter_append]
      exact (separated head mem_cons_self).windowAfter_eq _
    rw [ends]
    exact ih (fun p inside => separated p (mem_cons_of_mem head inside)) inRest

/-! ## Agreement -/

section Agreement

variable (tools : Toolchain) (databaseType : DatabaseType)

/-- No text is dangerous and classified as a read, and a sequence of statements is a read
only if each of its statements is. -/
structure RiskAgrees [DecidableEq Expr] (sql : Str) : Prop where
  approval : tools.isDangerousSqlForDatabase sql databaseType = true →
    tools.classifySqlRiskForDatabase sql databaseType ≠ .ok .readOnly
  sequence : ∀ s : Sequence tools (dialectForDatabaseType databaseType) sql,
    tools.classifySqlRiskForDatabase sql databaseType = .ok .readOnly →
    ∀ part ∈ s.parts, tools.classifySqlRiskForDatabase part.text databaseType = .ok .readOnly

/-- The text fallback sees what the trees and the single statements show. -/
structure WritesSeen (sql : Str) : Prop where
  /-- A statement that selects into a table is seen in the text. -/
  into : supportsSelectIntoTableCreation databaseType = true → ∀ statements,
    tools.parse (dialectForDatabaseType databaseType) sql = some statements →
    ∀ statement ∈ statements, statementSelectsInto statement = true →
    ShowsWrite tools databaseType sql statements
  /-- A write that the fallback sees in one statement it sees in the whole text. -/
  statements : ∀ s : Sequence tools (dialectForDatabaseType databaseType) sql, ∀ part ∈ s.parts,
    hasDialectSpecificWrite tools.tokenize part.text databaseType = true →
    ShowsWrite tools databaseType sql (s.parts.map (·.statement))
  /-- Where the text or a statement reads as a search engine request, a write of the
  statement is one of the text. -/
  requests : ∀ s : Sequence tools (dialectForDatabaseType databaseType) sql, ∀ part ∈ s.parts,
    (classifySearchEngineQueryRisk sql databaseType).isSome ∨
      (classifySearchEngineQueryRisk part.text databaseType).isSome →
    ShowsWrite tools databaseType part.text [part.statement] →
    ShowsWrite tools databaseType sql (s.parts.map (·.statement))

variable {tools databaseType}

theorem parsedStatements_ne_nil (parsed : tools.parsedStatements dialect sql = some statements) :
    tools.parse dialect sql = some statements ∧ statements ≠ [] := by
  simp only [parsedStatements, filter_eq_some_iff, Bool.not_eq_true',
    isEmpty_eq_false_iff] at parsed
  exact parsed

theorem Sequence.parsed (s : Sequence tools dialect sql) (member : part ∈ s.parts) :
    tools.parsedStatements dialect sql = some (s.parts.map (·.statement)) :=
  parsedStatements_eq tools s.parses (by simpa using ne_nil_of_mem member)

theorem Sequence.parsedAlone (s : Sequence tools dialect sql) (member : part ∈ s.parts) :
    tools.parsedStatements dialect part.text = some [part.statement] :=
  parsedStatements_eq tools (s.parsesAlone part member) (by simp)

/-- What a statement shows alone is seen in its tree or as a locking clause, and then in
the whole text, or by the fallback. -/
theorem showsWrite_of_part {s : Sequence tools (dialectForDatabaseType databaseType) sql}
    (member : part ∈ s.parts) (noRequest : classifySearchEngineQueryRisk sql databaseType = none)
    (noRequestAlone : classifySearchEngineQueryRisk part.text databaseType = none)
    (shows : ShowsWrite tools databaseType part.text [part.statement]) :
    hasDialectSpecificWrite tools.tokenize part.text databaseType = true ∨
      ShowsWrite tools databaseType sql (s.parts.map (·.statement)) := by
  unfold ShowsWrite at shows ⊢
  simp only [noRequest, noRequestAlone] at shows ⊢
  obtain fallback | locks | ⟨statement, single, write⟩ := shows
  · exact .inl fallback
  · right; right; left
    unfold sqlContainsLockingClause at locks ⊢
    rw [s.tokenizesAlone part member] at locks
    rw [s.tokenizes]
    exact lockingClauseFrom_parts s.separated member locks
  · right; right; right
    have isPart : statement = part.statement := by simpa using single
    exact ⟨statement, by rw [isPart]; exact mem_map_of_mem member, write⟩

theorem showsWrite_of_alone (seen : WritesSeen tools databaseType sql)
    {s : Sequence tools (dialectForDatabaseType databaseType) sql} (member : part ∈ s.parts)
    (shows : ShowsWrite tools databaseType part.text [part.statement]) :
    ShowsWrite tools databaseType sql (s.parts.map (·.statement)) := by
  by_cases request : (classifySearchEngineQueryRisk sql databaseType).isSome ∨
      (classifySearchEngineQueryRisk part.text databaseType).isSome
  · exact seen.requests s part member request shows
  simp only [not_or, not_isSome_iff_eq_none] at request
  obtain fallback | whole := showsWrite_of_part member request.1 request.2 shows
  · exact seen.statements s part member fallback
  · exact whole

variable [DecidableEq Expr]

theorem riskAgrees_of_writesSeen (seen : WritesSeen tools databaseType sql) :
    RiskAgrees tools databaseType sql where
  approval dangerous := by
    cases parsed : tools.parsedStatements (dialectForDatabaseType databaseType) sql with
    | none => exact dangerous_unparsed tools databaseType parsed dangerous
    | some statements =>
      rw [ne_eq, classify_readOnly_iff tools databaseType parsed, not_not]
      obtain shows | creates := dangerous_parsed tools databaseType parsed dangerous
      · exact shows
      · obtain ⟨supports, statement, member, into⟩ := creates
        exact seen.into supports statements (parsedStatements_ne_nil parsed).1 statement member into
  sequence s read part member := by
    rw [classify_readOnly_iff tools databaseType (s.parsed member)] at read
    rw [classify_readOnly_iff tools databaseType (s.parsedAlone member)]
    exact fun shows => read (showsWrite_of_alone seen member shows)

end Agreement

/-! ## A table created by a read -/

def hiddenInto : Str := "SELECT '\\' AS a, ';' AS b INTO t FROM x".toList

/-- The tokens of `hiddenInto` in PostgreSQL, where a backslash in a string is a plain
character. -/
def hiddenIntoTokens : List Token :=
  let word := fun text : String => Token.word text.toList none
  [word "SELECT", .whitespace, .other, .whitespace, word "AS", .whitespace, word "a", .other,
    .whitespace, .other, .whitespace, word "AS", .whitespace, word "b", .whitespace, word "INTO",
    .whitespace, word "t", .whitespace, word "FROM", .whitespace, word "x"]

/-- The PostgreSQL parser and tokenizer on `hiddenInto`; the parts the splitter cuts it
into hold an unclosed string, so the tokenizer fails on them. -/
def hiddenIntoTools : Toolchain where
  parse _ text :=
    if text == hiddenInto then
      some [.query (.mk [] (.select true [.value (.singleQuotedString ['\\']),
        .value (.singleQuotedString [';'])] []) false [])]
    else none
  tokenize _ text := if text == hiddenInto then some hiddenIntoTokens else none
  cases := .ascii
  exprs := ⟨fun _ _ => true, Nat, fun _ => none, fun _ _ => false, fun _ _ => false, fun _ => false⟩

section

open scoped Classical

end

end Dbx.Guarantees.RiskAgreement
