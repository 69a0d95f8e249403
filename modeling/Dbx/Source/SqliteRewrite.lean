import Dbx.Lib.Text

/-!
# Changing the declared types of a SQLite table

Model of `rewrite_declared_column_types` and the scanners under it
(`crates/dbx-core/src/table_structure_sql/sqlite_rebuild.rs:740-1166`). Where the source has
positions in a text, the model has the parts of the text. The scanners share one lexer of
quotes and comments: `scan` marks the characters at which a scanner in `ScanMode::Normal` can
do something. The map of changes is a list of pairs.
-/
namespace Dbx.Source.SqliteRewrite

open Dbx.Lib.Text List

inductive ScanMode where
  | normal | singleQuote | doubleQuote | backtick | bracket | lineComment | blockComment
  deriving DecidableEq

structure ScanStep where
  /-- The character is looked at outside of quotes and comments, and is no blank. -/
  plain : Bool
  mode : ScanMode
  /-- The next character is passed over. -/
  skip : Bool

def quoteStep (mode : ScanMode) (quote c : Char) (next : Option Char) : ScanStep :=
  if c = quote then
    if next = some quote then ⟨false, mode, true⟩ else ⟨false, .normal, false⟩
  else ⟨false, mode, false⟩

def scanStep (mode : ScanMode) (c : Char) (next : Option Char) : ScanStep :=
  match mode with
  | .normal =>
    if c = '\'' then ⟨false, .singleQuote, false⟩
    else if c = '"' then ⟨false, .doubleQuote, false⟩
    else if c = '\x60' then ⟨false, .backtick, false⟩
    else if c = '[' then ⟨false, .bracket, false⟩
    else if c = '-' ∧ next = some '-' then ⟨false, .lineComment, true⟩
    else if c = '/' ∧ next = some '*' then ⟨false, .blockComment, true⟩
    else ⟨!isAsciiWhitespace c, .normal, false⟩
  | .singleQuote => quoteStep .singleQuote '\'' c next
  | .doubleQuote => quoteStep .doubleQuote '"' c next
  | .backtick => quoteStep .backtick '\x60' c next
  | .bracket => ⟨false, if c = ']' then .normal else .bracket, false⟩
  | .lineComment => ⟨false, if c = '\n' then .normal else .lineComment, false⟩
  | .blockComment =>
    if c = '*' ∧ next = some '/' then ⟨false, .normal, true⟩ else ⟨false, .blockComment, false⟩

abbrev Mark := Char × Bool

def scan (mode : ScanMode) (skip : Bool) : Str → List Mark
  | [] => []
  | c :: rest =>
    if skip then (c, false) :: scan mode false rest
    else
      let step := scanStep mode c rest.head?
      (c, step.plain) :: scan step.mode step.skip rest

/-- The marks of a text that a scanner starts with. -/
def marks (text : Str) : List Mark := scan .normal false text

def before (front : Str) {α : Type} (found : Str × α) : Str × α := (front ++ found.1, found.2)

/-! ## The body of the statement -/

def findOpen : List Mark → Option (Str × List Mark)
  | [] => none
  | (c, plain) :: rest =>
    if plain && c == '(' then some ([], rest) else (findOpen rest).map (before [c])

/-- The text up to the parenthesis that closes, at a depth within the body. -/
def findClose (depth : Nat) : List Mark → Option (Str × Str)
  | [] => none
  | (c, plain) :: rest =>
    if plain && c == '(' then (findClose (depth + 1) rest).map (before [c])
    else if plain && c == ')' then
      if depth = 0 then some ([], rest.map Prod.fst) else (findClose (depth - 1) rest).map (before [c])
    else (findClose depth rest).map (before [c])

/-- What stands before, between and after the parentheses of the body. -/
def findCreateTableBodySpan (sql : Str) : Option (Str × Str × Str) :=
  match findOpen (marks sql) with
  | none => none
  | some (front, rest) => (findClose 0 rest).map fun (body, back) => (front, body, back)

def onFirst (c : Char) : List Str → List Str
  | [] => [[c]]
  | entry :: entries => (c :: entry) :: entries

/-- The text between the commas of the body. -/
def splitEntries (depth : Nat) : List Mark → List Str
  | [] => [[]]
  | (c, plain) :: rest =>
    if plain && c == '(' then onFirst c (splitEntries (depth + 1) rest)
    else if plain && c == ')' then onFirst c (splitEntries (depth - 1) rest)
    else if plain && c == ',' && depth == 0 then [] :: splitEntries depth rest
    else onFirst c (splitEntries depth rest)

/-! ## One entry -/

/-- A quoted name: what it stands for, and what follows it. -/
def readQuoted (close : Char) : Str → Option (Str × Str)
  | [] => none
  | [c] => if c = close then some ([], []) else none
  | c :: d :: rest =>
    if c = close then
      if close ≠ ']' ∧ d = close then (readQuoted close rest).map (before [close])
      else some ([], d :: rest)
    else (readQuoted close (d :: rest)).map (before [c])

structure Identifier where
  name : Str
  rest : Str
  quoted : Bool

def parseIdentifier : Str → Option Identifier
  | [] => none
  | first :: rest =>
    if first = '\'' ∨ first = '"' ∨ first = '\x60' ∨ first = '[' then
      (readQuoted (if first = '[' then ']' else first) rest).map fun found =>
        ⟨found.1, found.2, true⟩
    else
      let ends (c : Char) := isWhitespace c || c == '(' || c == ')' || c == ',' || c == ';'
      let name := (first :: rest).takeWhile fun c => !ends c
      if name.isEmpty then none else some ⟨name, (first :: rest).dropWhile fun c => !ends c, false⟩

/-- The text behind the end of a block comment. -/
def afterBlock : Str → Option Str := afterFirst "*/".toList

theorem afterFirst_length {needle t rest : Str} (found : afterFirst needle t = some rest) :
    rest.length ≤ t.length := by
  induction t with
  | nil =>
    unfold afterFirst at found
    split at found
    · cases found
      exact Nat.le_refl 0
    · cases found
  | cons c t ih =>
    unfold afterFirst at found
    split at found
    · cases found
      simp
    · have := ih found
      simp only [length_cons]
      omega

def skipSpace (text : Str) : Str := text.dropWhile isAsciiWhitespace

theorem skipSpace_length (text : Str) : (skipSpace text).length ≤ text.length :=
  (dropWhile_sublist isAsciiWhitespace).length_le

/-- The text behind blanks and comments; a block comment that is not closed has none. -/
def skipSpaceAndComments (text : Str) : Option Str :=
  if "--".toList.isPrefixOf (skipSpace text) then
    skipSpaceAndComments (((skipSpace text).drop 2).dropWhile (· != '\n'))
  else if "/*".toList.isPrefixOf (skipSpace text) then
    match _h : afterBlock ((skipSpace text).drop 2) with
    | none => none
    | some behind => skipSpaceAndComments behind
  else some (skipSpace text)
termination_by text.length
decreasing_by
  · rename_i comment
    have some := ( isPrefixOf_iff_prefix.mp comment).length_le
    have shorter := (dropWhile_sublist (fun c => c != '\n')
      (l := (skipSpace text).drop 2)).length_le
    have whole := skipSpace_length text
    simp only [length_drop, String.length_toList] at shorter some
    have two : "--".length = 2 := by decide
    omega
  · rename_i _ comment
    have some := ( isPrefixOf_iff_prefix.mp comment).length_le
    have shorter := afterFirst_length _h
    have whole := skipSpace_length text
    simp only [length_drop, String.length_toList] at shorter some
    have two : "/*".length = 2 := by decide
    omega

def isColumnConstraintKeyword (word : Str) : Bool :=
  (["primary", "not", "unique", "check", "default", "collate", "references",
    "generated"].map String.toList).contains (toAsciiLowercase word)

def isWordByte (c : Char) : Bool := c.isAlphanum || c == '_'

/-- The text before the first constraint keyword outside of parentheses, and the text from it
on. A word is looked at as a whole; `inWord` stands behind its first character. -/
def findColumnConstraintStart (depth : Nat) (inWord : Bool) : List Mark → Option (Str × Str)
  | [] => none
  | (c, plain) :: rest =>
    if inWord && isWordByte c then (findColumnConstraintStart depth true rest).map (before [c])
    else if plain && c == '(' then
      (findColumnConstraintStart (depth + 1) false rest).map (before [c])
    else if plain && c == ')' then
      (findColumnConstraintStart (depth - 1) false rest).map (before [c])
    else if plain && depth == 0 && (c.isAlpha || c == '_') then
      if isColumnConstraintKeyword (c :: (rest.map Prod.fst).takeWhile isWordByte) then
        some ([], c :: rest.map Prod.fst)
      else (findColumnConstraintStart depth true rest).map (before [c])
    else (findColumnConstraintStart depth false rest).map (before [c])

structure TypeSpan where
  name : Str
  /-- The text before the type. -/
  front : Str
  declared : Str
  /-- The text from the end of the type. -/
  back : Str

def tableConstraintKeywords : List Str :=
  ["constraint", "primary", "unique", "check", "foreign"].map String.toList

def parseColumnTypeSpan (entry : Str) : Option TypeSpan :=
  match skipSpaceAndComments entry with
  | none => none
  | some named =>
    match parseIdentifier named with
    | none => none
    | some identifier =>
      if !identifier.quoted &&
          tableConstraintKeywords.contains (toAsciiLowercase identifier.name) then none
      else
        let typed := (skipSpaceAndComments identifier.rest).getD []
        let (span, constraints) :=
          (findColumnConstraintStart 0 false (marks typed)).getD (typed, [])
        let declared := span.rdropWhile isAsciiWhitespace
        some
          { name := identifier.name
            front := entry.take (entry.length - typed.length)
            declared
            back := span.drop declared.length ++ constraints }

/-! ## The statement -/

def duplicateError (name : Str) : Str :=
  "SQLite CREATE TABLE contains duplicate column definition \"".toList ++ name ++ "\".".toList

def missingError (name : Str) : Str :=
  "Column \"".toList ++ name ++
    "\" could not be located unambiguously in the SQLite CREATE TABLE statement.".toList

/-- The entry with its new type; `found` are the changed columns before it. -/
def rewriteEntry (changes : List (Str × Str)) (found : List Str) (raw : Str) :
    Except Str (Str × List Str) :=
  let lead := raw.takeWhile isAsciiWhitespace
  let entry := (raw.dropWhile isAsciiWhitespace).rdropWhile isAsciiWhitespace
  let trail := (raw.dropWhile isAsciiWhitespace).drop entry.length
  match parseColumnTypeSpan entry with
  | none => .ok (raw, found)
  | some span =>
    let key := toAsciiLowercase span.name
    match changes.lookup key with
    | none => .ok (raw, found)
    | some nextType =>
      if found.contains key then .error (duplicateError span.name)
      else
        let replacement := if span.declared.isEmpty then nextType ++ [' '] else nextType
        .ok (lead ++ span.front ++ replacement ++ span.back ++ trail, key :: found)

def rewriteEntries (changes : List (Str × Str)) (found : List Str) :
    List Str → Except Str (List Str × List Str)
  | [] => .ok ([], found)
  | raw :: entries =>
    match rewriteEntry changes found raw with
    | .error e => .error e
    | .ok (entry, found) =>
      match rewriteEntries changes found entries with
      | .error e => .error e
      | .ok (rest, found) => .ok (entry :: rest, found)

def rewriteDeclaredColumnTypes (sql : Str) (changes : List (Str × Str)) : Except Str Str :=
  match findCreateTableBodySpan sql with
  | none => .error "SQLite CREATE TABLE statement could not be parsed safely.".toList
  | some (front, body, back) =>
    match rewriteEntries changes [] (splitEntries 0 (marks body)) with
    | .error e => .error e
    | .ok (entries, found) =>
      match changes.find? fun change => !found.contains change.1 with
      | some change => .error (missingError change.1)
      | none => .ok (front ++ '(' :: joinWith [','] entries ++ ')' :: back)

/-! ## The types that are accepted -/

def checkCharacters (depth : Int) : Str → Except Str Int
  | [] => .ok depth
  | '(' :: rest => checkCharacters (depth + 1) rest
  | ')' :: rest =>
    if depth - 1 < 0 then .error "declared type has unbalanced parentheses.".toList
    else checkCharacters (depth - 1) rest
  | c :: rest =>
    if c = ',' ∧ depth = 0 then .error "declared type contains a top-level comma.".toList
    else if isWordByte c || isAsciiWhitespace c || c == ',' then checkCharacters depth rest
    else .error ("declared type contains unsupported character \"".toList ++ [c] ++ "\".".toList)

def validateDeclaredType (dataType : Str) : Except Str Unit :=
  let dataType := trim dataType
  if dataType.isEmpty then .error "declared type cannot be empty.".toList
  else if dataType.contains ';' || occursIn "--".toList dataType || occursIn "/*".toList dataType ||
      occursIn "*/".toList dataType ||
      dataType.any (fun c => c == '\'' || c == '"' || c == '\x60' || c == '[' || c == ']') then
    .error "declared type contains SQL syntax that is not allowed in a type name.".toList
  else
    match checkCharacters 0 dataType with
    | .error e => .error e
    | .ok depth =>
      if depth ≠ 0 then .error "declared type has unbalanced parentheses.".toList
      else if (wordsBy isWordByte dataType).any isColumnConstraintKeyword then
        .error "declared type cannot include column constraints.".toList
      else .ok ()

end Dbx.Source.SqliteRewrite
