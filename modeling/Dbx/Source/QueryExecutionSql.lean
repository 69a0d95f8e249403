import Dbx.Source.StatementSplitter

/-!
# Read and write statements by their text

Model of the keyword classification of `query_execution_sql.rs`: the comment and
literal strippers (712-905), the word searches (435-451, 682-705), the statement
verdict (453-578), the database verdict (256-368, 409-430), the read-only check
(582-592), the classifier for manual Oracle transactions (604-680) and the gate in
front of EXPLAIN (139-148, 184-204). The builders of the EXPLAIN texts in the same
file are not part of it.

`str::to_uppercase` and `str::to_lowercase` follow the Unicode tables of the Rust
library, so they are parameters (`CaseTables`) that are fixed on ASCII. Byte
offsets become positions between characters: the words that are searched for and
the bytes that delimit them are ASCII.
-/
namespace Dbx.Source

open Dbx.Lib.Text List

/-! ## Stripping comments and literals -/

/-- What a stripper is inside of. `skip` consumes one more character first. -/
inductive StripMode where
  | code | lineComment | blockComment | singleQuote | doubleQuote | backtick
  | skip (mode : StripMode)
  deriving DecidableEq, Repr

def stripCodeStep (ch : Char) (next : Option Char) : ScanStep Char StripMode :=
  if ch == '-' && next == some '-' then ⟨[], .skip .lineComment⟩
  else if ch == '#' then ⟨[], .lineComment⟩
  else if ch == '/' && next == some '*' then ⟨[], .skip .blockComment⟩
  else if ch == '\'' then ⟨[' '], .singleQuote⟩
  else if ch == '"' then ⟨[' '], .doubleQuote⟩
  else if ch == '\x60' then ⟨[' '], .backtick⟩
  else ⟨[ch], .code⟩

/-- A character inside a quoted text: only a doubled quote is an escape. -/
def stripQuoteStep (quote ch : Char) (next : Option Char) (mode : StripMode) :
    ScanStep Char StripMode :=
  ⟨[' '], if ch == quote then if next == some quote then .skip mode else .code else mode⟩

def stripStep (mode : StripMode) (ch : Char) (next : Option Char) : ScanStep Char StripMode :=
  match mode with
  | .code => stripCodeStep ch next
  | .lineComment => if ch == '\n' then ⟨[' '], .code⟩ else ⟨[], .lineComment⟩
  | .blockComment =>
    if ch == '*' && next == some '/' then ⟨[' '], .skip .code⟩ else ⟨[], .blockComment⟩
  | .singleQuote => stripQuoteStep '\'' ch next .singleQuote
  | .doubleQuote => stripQuoteStep '"' ch next .doubleQuote
  | .backtick => stripQuoteStep '\x60' ch next .backtick
  | .skip mode => ⟨[], mode⟩

def stripFrom (mode : StripMode) : Str → Str
  | [] => []
  | ch :: rest =>
    let step := stripStep mode ch rest.head?
    step.emit ++ stripFrom step.next rest

/-- Whether a comment that the stripper opens is one that MySQL or MariaDB executes. -/
def opensExecutableComment (mode : StripMode) : Str → Bool
  | [] => false
  | ch :: rest =>
    mode == .code && isMysqlExecutableCommentStart (ch :: rest) ||
      opensExecutableComment (stripStep mode ch rest.head?).next rest

def stripSqlCommentsAndLiteralsWithMetadata (sql : Str) (detectMysqlExecutableComments : Bool) :
    Str × Bool :=
  (stripFrom .code sql, detectMysqlExecutableComments && opensExecutableComment .code sql)

def stripSqlCommentsAndLiterals (sql : Str) : Str :=
  (stripSqlCommentsAndLiteralsWithMetadata sql false).1

/-- The body of an executable comment up to its closer, and the text after it. -/
def executableCommentBody (skippingVersion : Bool) : Str → Str × Str
  | [] => ([], [])
  | '*' :: '/' :: rest => ([], rest)
  | ch :: rest =>
    if skippingVersion && (ch.isDigit || isWhitespace ch) then
      executableCommentBody skippingVersion rest
    else
      let r := executableCommentBody false rest
      (ch :: r.1, r.2)

def readMysqlExecutableCommentBody : Str → Option (Str × Str)
  | '!' :: rest => some (executableCommentBody true rest)
  | 'M' :: '!' :: rest => some (executableCommentBody true rest)
  | _ => none

theorem executableCommentBody_length (skippingVersion : Bool) (text : Str) :
    (executableCommentBody skippingVersion text).1.length +
      (executableCommentBody skippingVersion text).2.length ≤ text.length := by
  fun_induction executableCommentBody skippingVersion text with
  | case1 => simp
  | case2 skipping rest => simp only [length_cons, length_nil]; omega
  | case3 ch rest _ h ih => simp only [length_cons]; omega
  | case4 skipping ch rest _ h r ih => simp only [r, length_cons]; omega

theorem readMysqlExecutableCommentBody_length {text body rest : Str}
    (h : readMysqlExecutableCommentBody text = some (body, rest)) :
    body.length + rest.length ≤ text.length := by
  unfold readMysqlExecutableCommentBody at h
  split at h
  · have := executableCommentBody_length true ‹Str›
    simp only [Option.some.injEq] at h
    simp only [h] at this
    simp only [length_cons]
    omega
  · have := executableCommentBody_length true ‹Str›
    simp only [Option.some.injEq] at h
    simp only [h] at this
    simp only [length_cons]
    omega
  · cases h

/-- What `strip_sql_comments` is inside of. -/
inductive CommentMode where
  | code | lineComment | blockComment
  deriving DecidableEq, Repr

/-- Drops comments and puts the stripped bodies of executable comments in their place. -/
def stripSqlCommentsFrom : CommentMode → Str → Str
  | _, [] => []
  | .lineComment, ch :: rest =>
    if ch == '\n' then ' ' :: stripSqlCommentsFrom .code rest
    else stripSqlCommentsFrom .lineComment rest
  | .blockComment, ch :: rest =>
    if ch == '*' && rest.head? == some '/' then ' ' :: stripSqlCommentsFrom .code rest.tail
    else stripSqlCommentsFrom .blockComment rest
  | .code, ch :: rest =>
    if ch == '-' && rest.head? == some '-' then stripSqlCommentsFrom .lineComment rest.tail
    else if ch == '#' then stripSqlCommentsFrom .lineComment rest
    else if ch == '/' && rest.head? == some '*' then
      match _h : readMysqlExecutableCommentBody rest.tail with
      | some (body, after) =>
        ' ' :: stripSqlCommentsFrom .code body ++ ' ' :: stripSqlCommentsFrom .code after
      | none => stripSqlCommentsFrom .blockComment rest.tail
    else ch :: stripSqlCommentsFrom .code rest
termination_by _ text => text.length
decreasing_by
  all_goals simp only [length_cons, length_tail]
  all_goals first
    | omega
    | (have bound := readMysqlExecutableCommentBody_length _h
       simp only [length_tail] at bound
       omega)

def stripSqlComments (sql : Str) : Str := stripSqlCommentsFrom .code sql

/-! ## Words -/

/-- The case mappings of the Rust library. Lower case may depend on the characters
around (the Greek final sigma); ASCII characters map to ASCII characters. -/
structure CaseTables where
  lower : (before : Str) → Char → (after : Str) → Str
  upper : Char → Str
  lower_ascii : ∀ before c after, c.val < 128 → lower before c after = [c.toLower]
  upper_ascii : ∀ c, c.val < 128 → upper c = [c.toUpper]

namespace CaseTables

def toLowercaseFrom (tables : CaseTables) (before : Str) : Str → Str
  | [] => []
  | c :: rest => tables.lower before c rest ++ tables.toLowercaseFrom (before ++ [c]) rest

def toLowercase (tables : CaseTables) (text : Str) : Str := tables.toLowercaseFrom [] text

def toUppercase (tables : CaseTables) (text : Str) : Str := text.flatMap tables.upper

/-- The tables that leave everything but ASCII letters alone. -/
def ascii : CaseTables where
  lower _ c _ := [c.toLower]
  upper c := [c.toUpper]
  lower_ascii _ _ _ _ := rfl
  upper_ascii _ _ := rfl

end CaseTables

def isIdentifierByte (c : Option Char) : Bool := c.any fun c => c.isAlphanum || c == '_'

/-- Scans for the word with the character before it at hand. -/
def containsWordFrom (word : Str) (before : Option Char) : Str → Bool
  | [] => false
  | c :: rest =>
    word.isPrefixOf (c :: rest) && !isIdentifierByte before &&
        !isIdentifierByte ((c :: rest).drop word.length).head? ||
      containsWordFrom word (some c) rest

def containsWord (source word : Str) : Bool :=
  !word.isEmpty && containsWordFrom word none source

def dangerousWords : List String :=
  ["drop", "delete", "truncate", "alter", "update", "merge", "replace", "insert", "create"]

def containsDangerousSqlKeyword (tables : CaseTables) (sql : Str) : Bool :=
  let source := tables.toLowercase (stripSqlCommentsAndLiterals sql)
  dangerousWords.any fun keyword => containsWord source keyword.toList

/-- Two words that stand next to each other, with `previousMatches` for the word before. -/
def keywordSequence (first second : Str) (previousMatches : Bool) : List Str → Bool
  | [] => false
  | word :: words =>
    previousMatches && eqIgnoreAsciiCase word second ||
      keywordSequence first second (eqIgnoreAsciiCase word first) words

def containsKeywordSequence (sql first second : Str) : Bool :=
  keywordSequence first second false (wordsBy (fun ch => ch.isAlphanum || ch == '_') sql)

def isUnquotedKeyword (keyword : Str) : Token → Bool
  | .word value none => eqIgnoreAsciiCase value keyword
  | _ => false

def containsUnquotedKeyword (tokenize : Tokenizer) (sql : Str) (dialect : SqlparserDialect)
    (keyword : Str) : Bool :=
  (tokenize dialect sql).any fun tokens => tokens.any (isUnquotedKeyword keyword)

def startsWithKeyword (upper keyword : Str) : Bool :=
  keyword.isPrefixOf upper && !((upper.drop keyword.length).head?.any Char.isAlphanum)

/-! ## The verdict on one statement -/

def readSqlKeywords : List String :=
  ["SELECT", "WITH", "SHOW", "DESCRIBE", "DESC", "EXPLAIN", "FROM"]

def safeReadPragmaNames : List String :=
  ["TABLE_INFO", "TABLE_XINFO", "INDEX_LIST", "INDEX_INFO", "FOREIGN_KEY_LIST", "DATABASE_LIST",
    "COMPILE_OPTIONS", "DATA_VERSION"]

def startsWithShowCreate (upper : Str) : Bool :=
  startsWithKeyword upper "SHOW".toList &&
    startsWithKeyword (trimStart (upper.drop 4)) "CREATE".toList

/-- The scan of `select_contains_top_level_into`; the source adds a space at the end. -/
def topLevelInto (token : Str) (depth : Nat) (sawSelect : Bool) : Str → Bool
  | [] => false
  | ch :: rest =>
    if ch.isAlphanum || ch == '_' then topLevelInto (token ++ [ch]) depth sawSelect rest
    else
      let topLevel := !token.isEmpty && depth == 0
      if topLevel && token != "SELECT".toList && sawSelect && token == "INTO".toList then true
      else
        topLevelInto []
          (if ch == '(' then depth + 1 else if ch == ')' then depth - 1 else depth)
          (sawSelect || topLevel && token == "SELECT".toList) rest

def selectContainsTopLevelInto (upper : Str) : Bool := topLevelInto [] 0 false (upper ++ [' '])

def isSafeReadPragma (upperStripped : Str) : Bool :=
  let rest :=
    if "PRAGMA".toList.isPrefixOf upperStripped then trimStart (upperStripped.drop 6) else []
  let isNameChar := fun c : Char => c.isAlphanum || c == '_'
  let afterName := trimStart (rest.dropWhile isNameChar)
  !rest.isEmpty && safeReadPragmaNames.any (fun name => rest.takeWhile isNameChar == name.toList) &&
    (afterName.isEmpty || afterName.head? == some '(')

def isWriteSqlStatement (tables : CaseTables) (sql : Str)
    (detectMysqlExecutableComments detectSelectInto allowMysqlChecksum : Bool) : Bool :=
  let (cleaned, hasMysqlExecutableComment) :=
    stripSqlCommentsAndLiteralsWithMetadata sql detectMysqlExecutableComments
  if hasMysqlExecutableComment then true
  else
    let trimmed := trimStart cleaned
    if trimmed.isEmpty then false
    else
      let upper := tables.toUppercase trimmed
      let startsWithRead :=
        readSqlKeywords.any (fun keyword => startsWithKeyword upper keyword.toList) ||
          allowMysqlChecksum && startsWithKeyword upper "CHECKSUM TABLE".toList
      if !startsWithRead && startsWithKeyword upper "PRAGMA".toList then !isSafeReadPragma upper
      else if startsWithShowCreate upper then false
      else if detectSelectInto && startsWithKeyword upper "SELECT".toList &&
          selectContainsTopLevelInto upper then true
      else !startsWithRead || containsDangerousSqlKeyword tables sql

/-! ## Manual Oracle transactions -/

def oracleForbiddenWords : List String :=
  ["for", "update", "lock", "begin", "commit", "rollback", "savepoint", "create", "alter", "drop",
    "truncate", "rename", "grant", "revoke", "comment", "purge", "audit", "noaudit", "analyze",
    "flashback", "merge", "insert", "delete", "union", "minus", "intersect", "call", "exec",
    "execute", "declare", "nextval", "currval", "into"]

def isOracleProvenReadOnlyStatement (tables : CaseTables) (sql : Str) : Bool :=
  let cleaned := stripSqlCommentsAndLiterals sql
  let trimmed := trimStart cleaned
  if trimmed.isEmpty then false
  else if !startsWithKeyword (tables.toUppercase trimmed) "SELECT".toList then false
  else
    let lower := tables.toLowercase cleaned
    if lower.contains '(' then false
    else if lower.contains '@' then false
    else !oracleForbiddenWords.any fun word => containsWord lower word.toList

/-! ## The gate in front of EXPLAIN -/

def stripTrailingSemicolons (sql : Str) : Str :=
  trimEnd ((trimEnd sql).rdropWhile (· == ';'))

def hasExtraStatementAfterSemicolon (sql : Str) : Bool :=
  (((stripSqlCommentsAndLiterals sql).splitOn ';').drop 1).any fun part => !(trim part).isEmpty

def isSafeExplainSource (tables : CaseTables) (sql : Str) : Bool :=
  let source := tables.toLowercase (trimStart (stripSqlComments sql))
  ["select", "with", "table", "values"].any fun keyword =>
    source == keyword.toList || (keyword.toList ++ [' ']).isPrefixOf source ||
      (keyword.toList ++ ['\n']).isPrefixOf source

def isSafeOracleExplainDmlSource (sql : Str) : Bool :=
  let source := toAsciiUppercase (trimStart (stripSqlCommentsAndLiterals sql))
  ["INSERT", "UPDATE", "DELETE", "MERGE"].any fun keyword => startsWithKeyword source keyword.toList

def isSafeExplainSqlForDatabase (tables : CaseTables) (sql : Str)
    (databaseType : Option DatabaseType) : Bool :=
  let source := stripTrailingSemicolons (trim sql)
  if source.isEmpty || hasExtraStatementAfterSemicolon source then false
  else if databaseType == some .oracle && isSafeOracleExplainDmlSource source then true
  else isSafeExplainSource tables source && !containsDangerousSqlKeyword tables source

/-! ## The verdict for a database -/

inductive SearchEngineQueryRisk where
  | readOnly | write | dangerous
  deriving DecidableEq, Repr

/-- One turn of the loop drops a comment; every turn that continues shortens the text. -/
def dropSearchEngineComments : (fuel : Nat) → Str → Str
  | 0, input => trim input
  | fuel + 1, input =>
    let rest := trimStart input
    if rest.head? == some '#' then
      dropSearchEngineComments fuel ((afterFirst ['\n'] rest.tail).getD [])
    else if "//".toList.isPrefixOf rest then
      dropSearchEngineComments fuel ((afterFirst ['\n'] (rest.drop 2)).getD [])
    else if "/*".toList.isPrefixOf rest then
      dropSearchEngineComments fuel ((afterFirst "*/".toList (rest.drop 2)).getD [])
    else trim rest

def stripLeadingSearchEngineComments (input : Str) : Str :=
  dropSearchEngineComments input.length input

/-- `str::lines`, up to a carriage return at a line's end. -/
def lines (text : Str) : List Str :=
  (splitInclusive '\n' text).map fun line =>
    if line.getLast? == some '\n' then line.dropLast else line

def searchEngineReadEndpoints : List String :=
  ["_search", "_count", "_sql", "_msearch", "_field_caps", "_terms_enum", "_validate", "_explain",
    "_rank_eval", "_search_shards"]

def searchEngineWriteEndpoints : List String := ["_doc", "_create", "_update", "_bulk"]

/-- The verdict on a request, by its method in upper case and the segments of its path. -/
def classifyRequest (method : Str) (segments : List Str) : Option SearchEngineQueryRisk :=
  let hasSegment := fun candidate : String =>
    segments.any fun segment => eqIgnoreAsciiCase segment candidate.toList
  let hasDocumentId := fun candidate : String =>
    match segments.findIdx? fun segment => eqIgnoreAsciiCase segment candidate.toList with
    | some index => (segments.drop (index + 1)).head?.any fun value => !value.isEmpty
    | none => false
  let is := fun name : String => method == name.toList
  if is "GET" || is "HEAD" || is "OPTIONS" then some .readOnly
  else if is "POST" && searchEngineReadEndpoints.any hasSegment then some .readOnly
  else if is "POST" && searchEngineWriteEndpoints.any hasSegment then some .write
  else if is "PUT" && (hasDocumentId "_doc" || hasDocumentId "_create") then some .write
  else if is "DELETE" && hasDocumentId "_doc" then some .write
  else if is "POST" || is "PUT" || is "PATCH" || is "DELETE" then some .dangerous
  else none

def classifySearchEngineQueryRisk (source : Str) (databaseType : DatabaseType) :
    Option SearchEngineQueryRisk := do
  if databaseType != .elasticsearch && databaseType != .easysearch then none
  let requestLine ← (lines (stripLeadingSearchEngineComments source)).head?
  let (method, parts) ← match splitWhitespace requestLine with
    | [] => none
    | method :: parts => some (method, parts)
  let path ← parts.head?
  let path := path.takeWhile (· != '?')
  classifyRequest (toAsciiUppercase method) (wordsBy (· != '/') path)

def classifyDynamodbStatementWrite (source : Str) : Option Bool := do
  let header ← (lines source).find? fun line => !(trim line).isEmpty
  let header := toAsciiUppercase (trim header)
  if ["DBX DYNAMODB SCAN", "DBX DYNAMODB QUERY / SCAN"].any (header == ·.toList) then some false
  else if "DBX DYNAMODB".toList.isPrefixOf header then some true
  else none

section Databases

variable (tokenize : Tokenizer) (tables : CaseTables)

def hasDialectSpecificWriteStatement (sql : Str) (databaseType : DatabaseType) : Bool :=
  if databaseType.isMysqlCompatible then
    let (cleaned, hasExecutableComment) := stripSqlCommentsAndLiteralsWithMetadata sql true
    hasExecutableComment || containsKeywordSequence cleaned "INTO".toList "OUTFILE".toList ||
      containsKeywordSequence cleaned "INTO".toList "DUMPFILE".toList
  else if databaseType.isPostgresqlFamily then
    containsUnquotedKeyword tokenize sql .postgreSql "INTO".toList
  else if databaseType == .sqlServer then
    containsUnquotedKeyword tokenize sql .msSql "INTO".toList
  else false

def hasDialectSpecificWrite (sql : Str) (databaseType : DatabaseType) : Bool :=
  (splitSqlStatementsForDatabase tokenize sql databaseType).any fun statement =>
    hasDialectSpecificWriteStatement tokenize statement databaseType

def isSqlserverPlanCaptureSet (sql : Str) : Bool :=
  let tokens := (splitWhitespace (stripSqlComments sql)).map fun part =>
    toAsciiUppercase (part.rdropWhile (· == ';'))
  [["SET", "SHOWPLAN_XML", "ON"], ["SET", "SHOWPLAN_XML", "OFF"],
    ["SET", "STATISTICS", "XML", "ON"], ["SET", "STATISTICS", "XML", "OFF"]].any
    fun form => tokens == form.map (·.toList)

/-- The verdict when the database type is known. -/
def isWriteSqlWithDatabaseType (sql : Str) (databaseType : DatabaseType) : Bool :=
  if databaseType == .sqlServer && isSqlserverPlanCaptureSet sql then false
  else if hasDialectSpecificWrite tokenize sql databaseType then true
  else
    (splitSqlStatementsForDatabase tokenize sql databaseType).any fun statement =>
      isWriteSqlStatement tables statement false false (databaseType == .mysql)

/-- The verdict when only the text is known. -/
def isWriteSql (sql : Str) : Bool :=
  (splitSqlStatementsWithOptions tokenize sql {}).any fun statement =>
    isWriteSqlStatement tables statement true true false

def isWriteSqlForDatabase (sql : Str) (databaseType : DatabaseType) : Bool :=
  if databaseType == .victoriaMetrics then false
  else
    let headerVerdict :=
      if databaseType == .dynamoDb then classifyDynamodbStatementWrite sql else none
    match headerVerdict with
    | some isWrite => isWrite
    | none =>
      match classifySearchEngineQueryRisk sql databaseType with
      | some risk => risk != .readOnly
      | none => isWriteSqlWithDatabaseType tokenize tables sql databaseType

def checkReadOnly (sql connectionName : Str) (databaseType : DatabaseType) : Except Str Unit :=
  if isWriteSqlForDatabase tokenize tables sql databaseType then
    .error ("Read-only mode: connection '".toList ++ connectionName ++
      ("' has read-only protection enabled. Write operation (including stored procedure calls) " ++
        "blocked.").toList)
  else .ok ()

end Databases

end Dbx.Source
