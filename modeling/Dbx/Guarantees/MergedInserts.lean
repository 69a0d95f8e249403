import Dbx.Guarantees.ExplainGate
import Dbx.Guarantees.InsertHeads
import Dbx.Lib.Marks
import Mathlib.Data.List.Forall2

/-!
# INSERT statements that the import joins

The import joins neighbouring INSERT statements into one. The joined statement inserts the
rows of its sources, in order, into their table (`merged_inserts`), if every source meets
`isJoinable` and no two sources differ in the case of the letters of their table.

A server reads a statement as a head (`readHead`) and rows: texts in brackets, separated by
commas, whose literals and comments are those of the server's rules. Without the
conditions the two readings fall apart: the scanner takes `\'` for an escape in PostgreSQL
and `--1` for a comment in MySQL, and a comment at the end of a source swallows the comma
behind it.
-/
namespace Dbx.Guarantees.MergedInserts

open Dbx.Source Dbx.Lib.Text Dbx.Lib.Lexing List Option
open Bool (and_eq_true false_eq_true)
open Dbx.Guarantees.ExplainGate (mysqlRules postgresRules)
open Dbx.Guarantees.InsertHeads

/-! ## How a server reads an INSERT -/

inductive InsertServer where
  /-- The flag tells that the server takes table names without regard to case. -/
  | mysql (foldsNames : Bool)
  | postgres
  deriving DecidableEq, Repr

namespace InsertServer

def rules : InsertServer → Rules
  | mysql _ => mysqlRules
  | postgres => postgresRules

def foldsNames : InsertServer → Bool
  | mysql folds => folds
  | postgres => true

end InsertServer

inductive RowState where
  | start
  /-- Inside a row, with the brackets that are open in it. -/
  | inside (depth : Nat) (row : Str)
  | after
  deriving DecidableEq, Repr

def isBlankMark (mark : Marked) : Bool :=
  mark.2 == .comment || mark.2 == .code && isSqlBlank mark.1

/-- The rows, and the text of a clause behind them. -/
def readRows : RowState → List Marked → Option (List Str × List Marked)
  | .start, [] => none
  | .start, mark :: rest =>
    if isBlankMark mark then readRows .start rest
    else if mark == ('(', .code) then readRows (.inside 0 ['(']) rest
    else none
  | .inside _ _, [] => none
  | .inside depth row, mark :: rest =>
    if mark == ('(', .code) then readRows (.inside (depth + 1) (row ++ ['('])) rest
    else if mark == (')', .code) then
      match depth with
      | 0 => (readRows .after rest).map fun (rows, tail) => ((row ++ [')']) :: rows, tail)
      | depth + 1 => readRows (.inside depth (row ++ [')'])) rest
    else readRows (.inside depth (row ++ [mark.1])) rest
  | .after, [] => some ([], [])
  | .after, mark :: rest =>
    if isBlankMark mark then readRows .after rest
    else if mark == (',', .code) then readRows .start rest
    else if mark.2 == .literal || mark.1 == '(' then none
    else some ([], mark :: rest)

structure InsertReading where
  head : List HeadToken
  rows : List Str
  tail : List Marked
  deriving DecidableEq, Repr

def isWord (words : List String) (token : HeadToken) : Bool :=
  words.any fun word => token.lower == .word word.toList

/-- A statement that inserts rows, not the result of a query. -/
def isRowInsert (head : List HeadToken) : Bool :=
  head.head?.any (isWord ["insert"]) && !head.any (isWord ["select", "table", "with"])

def readInsert (server : InsertServer) (text : Str) : Option InsertReading := do
  let (head, rest) ← readHead {} text
  let (rows, tail) ← readRows .start (server.rules.marks rest)
  if isRowInsert head then some ⟨head, rows, tail⟩ else none

/-- The words before the table. -/
def insertWords : List String :=
  ["insert", "low_priority", "delayed", "high_priority", "ignore", "into"]

structure InsertTarget where
  options : List HeadToken
  table : List HeadToken
  columns : List HeadToken
  deriving DecidableEq, Repr

def tableOf (head : List HeadToken) : List HeadToken :=
  (head.dropWhile (isWord insertWords)).takeWhile (· != .symbol '(')

/-- What a head names, as the server compares names. -/
def targetOf (server : InsertServer) (head : List HeadToken) : InsertTarget where
  options := (head.takeWhile (isWord insertWords)).map HeadToken.lower
  table := if server.foldsNames then (tableOf head).map HeadToken.lower else tableOf head
  columns :=
    ((head.dropWhile (isWord insertWords)).dropWhile (· != .symbol '(')).map HeadToken.lower

/-- The joined statement is one INSERT of the rows of its sources into their table. -/
def JoinsRows (server : InsertServer) (sources : List Str) (joined : Str) : Prop :=
  ∃ readings, List.Forall₂ (fun source reading =>
      readInsert server source = some reading ∧ reading.tail = []) sources readings ∧
    ∃ whole, readInsert server joined = some whole ∧ whole.tail = [] ∧
      whole.rows = (readings.map InsertReading.rows).flatten ∧
      ∀ reading ∈ readings, targetOf server reading.head = targetOf server whole.head

/-! ## Statements that the scanner reads alike -/

/-- The scanner shows code, and masks the rest or what it shows of it is no bracket. -/
def readsAlike (scanner : SqlScanner) (ch : Char) : Kind → Bool
  | .code => !scanner.isMasked && (!isWhitespace ch || isSqlBlank ch)
  | _ => scanner.isMasked || ch != '(' && ch != ')'

def agrees (scanner : SqlScanner) : List Marked → Bool
  | [] => true
  | mark :: rest =>
    let scanner := scanner.step mark.1 (rest.map Prod.fst)
    readsAlike scanner mark.1 mark.2 && agrees scanner rest

/-- The text behind the keyword is read alike and ends with a row. -/
def hasPlainRows (server : InsertServer) (rest : Str) : Bool :=
  let marks := server.rules.marks (trimStart rest)
  agrees {} marks && marks.getLast? == some (')', .code)

def isJoinable (server : InsertServer) (text : Str) : Bool :=
  (readInsert server text).isSome &&
    (readHead {} text).any fun (_, rest) => hasPlainRows server rest

/-- The tables are spelled alike, if the server tells spellings apart. -/
def spellsTablesAlike (server : InsertServer) (text text' : Str) : Bool :=
  match readHead {} text, readHead {} text' with
  | some (head, _), some (head', _) =>
    server.foldsNames || (tableOf head).map HeadToken.lower != (tableOf head').map HeadToken.lower ||
      tableOf head == tableOf head'
  | _, _ => true

/-! ## Rows -/

/-- The depth and the flags of the tuple list for a state of the reading. -/
inductive Follows : RowState → (depth : Nat) → (sawTuple expectingTuple : Bool) → Prop where
  | start (saw : Bool) : Follows .start 0 saw true
  | inside (depth : Nat) (row : Str) : Follows (.inside depth row) (depth + 1) true false
  | after : Follows .after 0 true true

variable {scanner : SqlScanner} {rest sql : Str} {rows sources : List Str} {c : Char}
  {insert : MergeableInsert} {inserts : List MergeableInsert}

theorem readsAlike_code {ch : Char} (h : readsAlike scanner ch .code = true) :
    scanner.isMasked = false ∧ (isWhitespace ch = true → isSqlBlank ch = true) := by
  simp only [readsAlike, and_eq_true, Bool.not_eq_true', Bool.or_eq_true] at h
  refine ⟨h.1, fun blank => ?_⟩
  rw [blank] at h
  simpa using h.2

/-- A character that the scanner shows is a bracket only if it is code. -/
theorem readsAlike_bracket {mark : Marked} (h : readsAlike scanner mark.1 mark.2 = true)
    (shown : scanner.isMasked = false) (bracket : mark.1 = '(' ∨ mark.1 = ')') :
    mark.2 = .code := by
  obtain ⟨ch, kind⟩ := mark
  cases kind with
  | code => rfl
  | literal | comment =>
    simp only [readsAlike, shown, Bool.false_or, and_eq_true, bne_iff_ne] at h
    rcases bracket with rfl | rfl
    · exact absurd rfl h.1
    · exact absurd rfl h.2

attribute [local simp] isBlankMark

/-- Between tuples the import skips what is blank for the server. -/
theorem isTupleList_blank {mark : Marked} {saw : Bool}
    (alike : readsAlike scanner mark.1 mark.2 = true) (blank : isBlankMark mark = true)
    (tuples : (if scanner.isMasked then isTupleList scanner 0 saw true rest
      else if true then
        if isWhitespace mark.1 || saw && mark.1 == ',' then isTupleList scanner 0 saw true rest
        else mark.1 == '(' && isTupleList scanner 1 true false rest
      else false) = true) : isTupleList scanner 0 saw true rest = true := by
  cases masked : scanner.isMasked with
  | true => simpa [masked] using tuples
  | false =>
    simp only [masked, false_eq_true, if_false, if_true] at tuples
    split at tuples
    · exact tuples
    rename_i visible
    rw [and_eq_true, beq_iff_eq] at tuples
    have code := readsAlike_bracket alike masked (.inl tuples.1)
    have sqlBlank : isSqlBlank mark.1 = true := by simpa [code] using blank
    simp [isWhitespace_of_sqlBlank sqlBlank] at visible

/-- A list of tuples for the import has no clause behind it for the server. -/
theorem tail_eq_nil {marks : List Marked} {state : RowState} {depth : Nat} {saw expecting : Bool}
    {tail : List Marked} (agree : agrees scanner marks = true)
    (follows : Follows state depth saw expecting)
    (tuples : isTupleList scanner depth saw expecting (marks.map Prod.fst) = true)
    (read : readRows state marks = some (rows, tail)) : tail = [] := by
  induction marks generalizing scanner state depth saw expecting rows with
  | nil =>
    cases follows with
    | start | inside => cases read
    | after =>
      cases read
      rfl
  | cons mark marks ih =>
    rw [agrees, and_eq_true] at agree
    obtain ⟨alike, agree⟩ := agree
    rw [map_cons, isTupleList] at tuples
    generalize scanner.step mark.1 (marks.map Prod.fst) = scanner at alike agree tuples
    cases follows with
    | start saw =>
      rw [readRows] at read
      split at read
      · rename_i blank
        exact ih agree (.start saw) (isTupleList_blank alike blank (by simpa using tuples)) read
      split at read
      · rename_i opens
        obtain rfl := beq_iff_eq.mp opens
        have shown := (readsAlike_code alike).1
        have dark : isWhitespace '(' = false := by decide
        simp only [shown, dark, false_eq_true, if_false, if_true, Bool.false_or] at tuples
        exact ih agree (.inside _ _) (by simpa using tuples) read
      · cases read
    | inside d row =>
      rw [readRows.eq_def] at read
      dsimp only at read
      split at read
      · rename_i opens
        obtain rfl := beq_iff_eq.mp opens
        have shown := (readsAlike_code alike).1
        simp only [shown, false_eq_true, if_false, beq_self_eq_true, if_true] at tuples
        exact ih agree (.inside _ _) tuples read
      · rename_i notOpen
        split at read
        · rename_i closes
          obtain rfl := beq_iff_eq.mp closes
          have shown := (readsAlike_code alike).1
          have other : (')' == '(') = false := by decide
          simp only [shown, other, false_eq_true, if_false, beq_self_eq_true, if_true,
            Nat.add_sub_cancel, and_eq_true] at tuples
          cases d with
          | zero =>
            obtain ⟨⟨rows', tail'⟩, later, same⟩ := map_eq_some_iff.mp read
            cases same
            exact ih agree .after tuples.2 later
          | succ d => exact ih agree (.inside _ _) (by simpa using tuples.2) read
        · rename_i notClose
          apply ih agree (.inside d _) _ read
          cases masked : scanner.isMasked with
          | true => simpa [masked] using tuples
          | false =>
            have noBracket {b : Char} (bracket : b = '(' ∨ b = ')')
                (other : ¬(mark == (b, .code)) = true) : mark.1 ≠ b := by
              rintro rfl
              apply other
              rw [beq_iff_eq, ← readsAlike_bracket alike masked bracket]
            simp only [masked, beq_iff_eq, noBracket (.inl rfl) notOpen,
              noBracket (.inr rfl) notClose, false_eq_true, if_false,
              and_eq_true] at tuples
            exact tuples.2
    | after =>
      rw [readRows] at read
      split at read
      · rename_i blank
        exact ih agree .after
          (isTupleList_blank alike blank (by simpa using tuples)) read
      rename_i notBlank
      split at read
      · rename_i comma
        obtain rfl := beq_iff_eq.mp comma
        have shown := (readsAlike_code alike).1
        simp only [shown, false_eq_true, if_false, if_true, beq_self_eq_true, Bool.true_and,
          Bool.or_true] at tuples
        exact ih agree (.start true) tuples read
      · rename_i notComma
        split at read
        · cases read
        rename_i clause
        -- The import would have seen the clause.
        exfalso
        obtain ⟨ch, kind⟩ := mark
        cases kind with
        | literal => simp at clause
        | comment => simp at notBlank
        | code =>
          obtain ⟨shown, blank⟩ := readsAlike_code alike
          have dark : isWhitespace ch = false :=
            Bool.eq_false_iff.mpr fun white => by simp [blank white] at notBlank
          have noOpen : (ch == '(') = false := by simpa using clause
          have noComma : (ch == ',') = false := by simpa using notComma
          simp [shown, dark, noOpen, noComma] at tuples

/-- Rows without a clause can be followed by more rows. -/
theorem readRows_append {state : RowState} {marks : List Marked}
    (read : readRows state marks = some (rows, [])) (more : List Marked) :
    readRows state (marks ++ more) =
      (readRows .after more).map fun (rows', tail) => (rows ++ rows', tail) := by
  induction marks generalizing state rows with
  | nil =>
    cases state with
    | start | inside => cases read
    | after =>
      cases read
      simp
  | cons mark marks ih =>
    rw [cons_append]
    cases state with
    | start =>
      rw [readRows] at read ⊢
      split at read
      · rw [if_pos ‹_›]
        exact ih read
      rw [if_neg ‹_›]
      split at read
      · rw [if_pos ‹_›]
        exact ih read
      · cases read
    | inside depth row =>
      rw [readRows.eq_def] at read ⊢
      dsimp only at read ⊢
      split at read
      · rw [if_pos ‹_›]
        exact ih read
      rw [if_neg ‹_›]
      split at read
      · rw [if_pos ‹_›]
        cases depth with
        | zero =>
          obtain ⟨⟨rows', tail'⟩, later, same⟩ := map_eq_some_iff.mp read
          cases same
          rw [ih later, Option.map_map]
          rfl
        | succ depth => exact ih read
      · rw [if_neg ‹_›]
        exact ih read
    | after =>
      rw [readRows] at read ⊢
      split at read
      · rw [if_pos ‹_›]
        exact ih read
      rw [if_neg ‹_›]
      split at read
      · rw [if_pos ‹_›]
        exact ih read
      · split at read <;> cases read

/-! ## The rules of the servers -/

namespace InsertServer

variable (server : InsertServer)

theorem identChar_mark (mark : c = ')' ∨ c = ',') : server.rules.identChar c = false := by
  cases server <;> rcases mark with rfl | rfl <;> rfl

theorem identChar_blank (blank : isSqlBlank c = true) : server.rules.identChar c = false := by
  have small := isSqlBlank_lt blank
  revert blank
  cases server with
  | mysql folds =>
    exact forall_char_lt (P := fun c => isSqlBlank c = true → mysqlRules.identChar c = false)
      (by decide) c small
  | postgres =>
    exact forall_char_lt (P := fun c => isSqlBlank c = true → postgresRules.identChar c = false)
      (by decide) c small

/-- A whitespace character between tokens is code. -/
theorem marks_whitespace (blank : isWhitespace c = true) (rest : Str) :
    ∃ word, server.rules.marks (c :: rest) =
      (c, .code) :: server.rules.marksFrom .code word rest ∧
      (isSqlBlank c = true → word = []) := by
  have plain : c ∉ ['-', '#', '/', '\'', '"', '\x60', '[', '$'] := by
    intro listed
    simp only [mem_cons, not_mem_nil, or_false] at listed
    rcases listed with rfl | rfl | rfl | rfl | rfl | rfl | rfl | rfl
    all_goals
      revert blank
      decide
  simp only [mem_cons, not_mem_nil, or_false, not_or] at plain
  obtain ⟨dash, hash, slash, single, double, back, square, dollar⟩ := plain
  have step : server.rules.step .code [] c rest = ⟨[some c], .code⟩ := by
    simp [Rules.step, Rules.codeStep, dash, hash, slash, single, double, back, square, dollar]
  refine ⟨server.rules.nextWord [] [some c], ?_, ?_⟩
  · rw [Rules.marks, Rules.marksFrom, step]
    rfl
  · intro sqlBlank
    rw [Rules.nextWord, server.identChar_blank sqlBlank]
    rfl

theorem marks_blank (blank : isSqlBlank c = true) (rest : Str) :
    server.rules.marks (c :: rest) = (c, .code) :: server.rules.marks rest := by
  obtain ⟨word, marks, none⟩ := server.marks_whitespace (isWhitespace_of_sqlBlank blank) rest
  rw [marks, none blank]
  rfl

/-- The blanks before the rows are read as blanks. -/
theorem readRows_trimStart {tail : List Marked}
    (read : readRows .start (server.rules.marks rest) = some (rows, tail)) :
    readRows .start (server.rules.marks (trimStart rest)) = some (rows, tail) := by
  induction rest with
  | nil => exact read
  | cons c rest ih =>
    rw [trimStart, dropWhile_cons]
    cases blank : isWhitespace c with
    | false => simpa [blank] using read
    | true =>
      obtain ⟨word, marks, none⟩ := server.marks_whitespace blank rest
      have sqlBlank : isSqlBlank c = true := by
        rw [marks, readRows] at read
        by_contra dark
        have other : c ≠ '(' := by
          rintro rfl
          revert blank
          decide
        simp [dark, other] at read
      rw [server.marks_blank sqlBlank, readRows, if_pos (by simp [sqlBlank])] at read
      simpa [trimStart, blank] using ih read

end InsertServer

/-! ## One source -/

/-- A text with its ends where they are. -/
theorem trim_eq_self {t : Str} (trimmed : Trimmed t) : trim t = t := by
  obtain ⟨first, head, dark⟩ := trimmed.head
  obtain ⟨last, ends, dark'⟩ := trimmed.last
  rw [trim, trimStart_eq_self head dark, trimEnd_eq_self ends dark']

theorem trimmed_trimStart {t : Str} (ends : (trimStart t).getLast? = some c)
    (dark : isWhitespace c = false) : Trimmed (trimStart t) := by
  refine ⟨?_, c, ends, dark⟩
  cases kept : trimStart t with
  | nil =>
    rw [kept] at ends
    cases ends
  | cons d t' => exact ⟨d, rfl, of_dropWhile_cons kept⟩

theorem trimmed_trimEnd {t : Str} (head : t.head? = some c) (dark : isWhitespace c = false) :
    Trimmed (trimEnd t) := by
  have cut : trimEnd t ++ t.rtakeWhile isWhitespace = t := rdropWhile_append_rtakeWhile
  cases kept : trimEnd t with
  | nil =>
    rw [kept, nil_append] at cut
    have white : isWhitespace c = true :=
      mem_rtakeWhile_imp (by rw [cut]; exact mem_of_mem_head? head)
    rw [dark] at white
    cases white
  | cons d t' =>
    constructor
    · rw [← cut, kept] at head
      cases head
      exact ⟨c, rfl, dark⟩
    · have nonempty : trimEnd t ≠ [] := by simp [kept]
      have last := rdropWhile_last_not isWhitespace t nonempty
      rw [← kept]
      exact ⟨_, getLast?_eq_some_getLast nonempty, Bool.eq_false_iff.mpr last⟩

/-- What the parser has checked. -/
theorem parse_cases {profile : SqlDialectProfile}
    (h : parseMergeableInsert sql profile = some insert) :
    insert.sql = trimEndSemicolons (leadingExecutableSqlWithOptions sql profile) ∧
      sqlStartsWithKeyword insert.sql "insert" = true ∧ ∃ before after,
      findTopLevelValuesKeyword {} 0 [] insert.sql = some (before, after) ∧
      parseInsertValuesTail (trim after) = some insert.values ∧ insert.start = trimEnd before ∧
      insert.startKey = normalizeInsertPrefixKey insert.start := by
  unfold parseMergeableInsert at h
  dsimp only at h
  split at h
  · cases h
  rename_i starts
  obtain ⟨⟨before, after⟩, found, h⟩ := bind_eq_some_iff.mp h
  obtain ⟨values, parsed, h⟩ := bind_eq_some_iff.mp h
  cases h
  exact ⟨rfl, by simpa using starts, before, after, found, parsed, rfl, rfl⟩

variable {server : InsertServer}

theorem readInsert_cases {text : Str} {reading : InsertReading}
    (h : readInsert server text = some reading) :
    ∃ rest, readHead {} text = some (reading.head, rest) ∧
      readRows .start (server.rules.marks rest) = some (reading.rows, reading.tail) ∧
      isRowInsert reading.head = true := by
  obtain ⟨⟨head, rest⟩, readHead, h⟩ := bind_eq_some_iff.mp h
  obtain ⟨⟨rows, tail⟩, readRows, h⟩ := bind_eq_some_iff.mp h
  dsimp only at h readRows
  split at h
  · cases h
    exact ⟨rest, readHead, readRows, ‹_›⟩
  · cases h

/-- The values of a text that ends with a row are the text behind the keyword. -/
theorem values_eq {values : Str} (ends : (trimStart rest).getLast? = some ')')
    (h : parseInsertValuesTail (trim rest) = some values) :
    values = trimStart rest ∧ isTupleList {} 0 false true (trimStart rest) = true := by
  have trimmed := trimmed_trimStart ends (by decide)
  have once : trim rest = trimStart rest := trimEnd_eq_self ends (by decide)
  have noSemicolon : (trimStart rest).rdropWhile (· == ';') = trimStart rest := by
    obtain ⟨front, same⟩ := getLast?_eq_some_iff.mp ends
    rw [same]
    exact rdropWhile_concat_neg _ _ _ (by decide)
  have tail : trimEndSemicolons (trim rest) = trimStart rest := by
    rw [once, trimEndSemicolons, trim_eq_self trimmed, noSemicolon, trim_eq_self trimmed]
  unfold parseInsertValuesTail at h
  rw [tail] at h
  dsimp only at h
  split at h
  · rename_i conditions
    cases h
    rw [and_eq_true] at conditions
    exact ⟨rfl, conditions.2⟩
  · cases h

/-- What the import keeps of a source that the server reads alike. -/
structure Source (server : InsertServer) (insert : MergeableInsert) (reading : InsertReading) :
    Prop where
  read : readInsert server insert.sql = some reading
  whole : reading.tail = []
  head : KeptHead insert.start reading.head
  trimmed : Trimmed insert.start
  key : insert.startKey = normalizeInsertPrefixKey insert.start
  last : (server.rules.marks insert.values).getLast? = some (')', .code)
  rows : readRows .start (server.rules.marks insert.values) = some (reading.rows, [])
  inserts : isRowInsert reading.head = true

/-- The text before the keyword starts with INSERT. -/
theorem head?_before {text before word : Str} (starts : sqlStartsWithKeyword text "insert" = true)
    (cut : text = before ++ (word ++ rest)) (keyword : isValuesWord word = true) :
    ∃ c, before.head? = some c ∧ isWhitespace c = false := by
  rw [sqlStartsWithKeyword, keywordAt_eq (by decide), and_eq_true, beq_iff_eq] at starts
  have letter : ∀ c rest, text = c :: rest → c.toLower = 'i' := by
    rintro c rest rfl
    have same := starts.2
    rw [takeWhile_cons] at same
    split at same
    · exact (cons.inj same).1
    · cases same
  cases before with
  | nil =>
    obtain ⟨c, word, rfl, isV⟩ := first_of_valuesWord keyword
    have := letter c (word ++ rest) cut
    rcases isV with rfl | rfl
    all_goals
      revert this
      decide
  | cons c before =>
    have lower := letter c _ cut
    refine ⟨c, rfl, ?_⟩
    rw [← isWhitespace_toLower, lower]
    decide

theorem exists_source {profile : SqlDialectProfile}
    (parsed : parseMergeableInsert sql profile = some insert)
    (joinable : isJoinable server insert.sql = true) : ∃ reading, Source server insert reading := by
  obtain ⟨-, starts, before, after, found, values, start, key⟩ := parse_cases parsed
  rw [isJoinable, and_eq_true] at joinable
  obtain ⟨reading, read⟩ := isSome_iff_exists.mp joinable.1
  obtain ⟨rest, readHead, readRows, inserts⟩ := readInsert_cases read
  obtain ⟨before', word, text, keyword, search, kept⟩ := exists_keptHead readHead
  rw [found] at search
  cases search
  have plain := joinable.2
  simp only [readHead, any_some] at plain
  rw [hasPlainRows, and_eq_true, beq_iff_eq] at plain
  have chars : (server.rules.marks (trimStart after)).map Prod.fst = trimStart after :=
    server.rules.map_fst_marksFrom .code [] _
  have ends : (trimStart after).getLast? = some ')' := by
    rw [← chars, getLast?_map, plain.2]
    rfl
  obtain ⟨same, tuples⟩ := values_eq ends values
  have rows := server.readRows_trimStart readRows
  have whole : reading.tail = [] :=
    tail_eq_nil plain.1 (.start false) (by rw [chars]; exact tuples) rows
  obtain ⟨c, headChar, dark⟩ := head?_before starts text keyword
  refine ⟨reading, read, whole, ?_, ?_, key, ?_, ?_, inserts⟩
  · rw [start]
    exact kept
  · rw [start]
    exact trimmed_trimEnd headChar dark
  · rw [same]
    exact plain.2
  · rw [same, rows, whole]

/-! ## The joined statement -/

theorem lower_lower (token : HeadToken) : token.lower.lower = token.lower := by
  cases token with
  | word text =>
    have lower : Char.toLower ∘ Char.toLower = Char.toLower :=
      funext fun c => toLower_congr (by decide) c
    simp [HeadToken.lower, lower]
  | name | symbol => rfl

theorem isWord_lower (words : List String) : isWord words ∘ HeadToken.lower = isWord words := by
  funext token
  rw [Function.comp_apply, isWord, isWord, lower_lower]

theorem bne_symbol_lower : (fun token => token != HeadToken.symbol '(') ∘ HeadToken.lower =
      fun token => token != HeadToken.symbol '(' := by
  funext token
  cases token <;> rfl

/-- Heads with the same tokens up to case name the same target, if they spell the table alike. -/
theorem targetOf_eq {head head' : List HeadToken}
    (same : head.map HeadToken.lower = head'.map HeadToken.lower)
    (spelled : server.foldsNames = true ∨
      ((tableOf head).map HeadToken.lower = (tableOf head').map HeadToken.lower →
        tableOf head = tableOf head')) : targetOf server head = targetOf server head' := by
  have options := congrArg (takeWhile (isWord insertWords)) same
  rw [takeWhile_map, takeWhile_map, isWord_lower] at options
  have rest := congrArg (dropWhile (isWord insertWords)) same
  rw [dropWhile_map, dropWhile_map, isWord_lower] at rest
  have tables := congrArg (takeWhile fun token => token != HeadToken.symbol '(') rest
  rw [takeWhile_map, takeWhile_map, bne_symbol_lower] at tables
  have columns := congrArg (dropWhile fun token => token != HeadToken.symbol '(') rest
  rw [dropWhile_map, dropWhile_map, bne_symbol_lower] at columns
  unfold targetOf
  congr 1
  obtain folds | alike := spelled
  · rw [if_pos folds, if_pos folds]
    exact tables
  · rw [alike tables]

theorem marks_comma (server : InsertServer) (rest : Str) :
    server.rules.marks (",\n".toList ++ rest) =
      (',', .code) :: ('\n', .code) :: server.rules.marks rest := by
  have step : server.rules.step .code [] ',' ('\n' :: rest) = ⟨[some ','], .code⟩ := by
    simp [Rules.step, Rules.codeStep]
  have text : ",\n".toList ++ rest = ',' :: '\n' :: rest := rfl
  rw [text, Rules.marks, Rules.marksFrom, step, Rules.nextWord, server.identChar_mark (.inr rfl)]
  exact congrArg _ (server.marks_blank (by decide) rest)

/-- The values of the sources, joined by commas, are the rows of all sources. -/
theorem readRows_join {readings : List InsertReading}
    (sources : List.Forall₂ (Source server) inserts readings) (nonempty : inserts ≠ []) :
    readRows .start (server.rules.marks (joinWith ",\n".toList
      (inserts.map (·.values)))) =
      some ((readings.map InsertReading.rows).flatten, []) := by
  induction sources with
  | nil => exact absurd rfl nonempty
  | @cons insert reading inserts readings source sources ih =>
    cases inserts with
    | nil =>
      cases sources
      simpa [joinWith] using source.rows
    | cons next inserts =>
      have later := ih (by simp)
      have comma : isBlankMark (',', .code) = false := by decide
      have newline : isBlankMark ('\n', .code) = true := by decide
      rw [map_cons] at later
      rw [map_cons, map_cons, joinWith, append_assoc,
        Rules.marks_append (server.identChar_mark (.inl rfl)) source.last,
        marks_comma, readRows_append source.rows, readRows, comma, readRows, newline]
      simp only [false_eq_true, if_false, beq_self_eq_true, if_true, later, map_some,
        map_cons, flatten_cons]

theorem exists_of_mem_right {α β : Type} {R : α → β → Prop} {l : List α} {u : List β}
    (h : List.Forall₂ R l u) {b : β} (member : b ∈ u) : ∃ a ∈ l, R a b := by
  induction h with
  | nil => cases member
  | cons here _ ih =>
    obtain same | later := mem_cons.mp member
    · subst same
      exact ⟨_, mem_cons_self .., here⟩
    · obtain ⟨a, inside, related⟩ := ih later
      exact ⟨a, mem_cons_of_mem _ inside, related⟩

/-- Sources with one key, joined as the import joins them. -/
theorem joinsRows {first : MergeableInsert} {readings : List InsertReading}
    (sources : List.Forall₂ (Source server) (first :: inserts) readings)
    (keys : ∀ insert ∈ first :: inserts, insert.startKey = first.startKey)
    (spelled : ∀ insert ∈ first :: inserts,
      spellsTablesAlike server insert.sql first.sql = true) :
    JoinsRows server ((first :: inserts).map MergeableInsert.sql)
      (first.start ++ " VALUES\n".toList ++
        joinWith ",\n".toList ((first :: inserts).map (·.values))) := by
  have rows := readRows_join sources (by simp)
  obtain ⟨reading, firstSource⟩ : ∃ reading, Source server first reading := by
    cases sources with
    | cons source => exact ⟨_, source⟩
  have head := firstSource.head.read
    (joinWith ",\n".toList ((first :: inserts).map (·.values)))
  refine ⟨readings, ?_, ⟨reading.head, (readings.map InsertReading.rows).flatten, []⟩, ?_, rfl, rfl,
    ?_⟩
  · rw [forall₂_map_left_iff]
    exact sources.imp fun insert reading source => ⟨source.read, source.whole⟩
  · unfold readInsert
    rw [append_assoc, head]
    simp only [bind_eq_bind, bind_some]
    rw [server.marks_blank (by decide), readRows, if_pos (by decide), rows]
    simp [firstSource.inserts]
  · intro reading' member
    obtain ⟨insert, inserted, source⟩ := exists_of_mem_right sources member
    obtain ⟨s, run, tokens⟩ := source.head.run
    obtain ⟨s', run', tokens'⟩ := firstSource.head.run
    have key : normalizeInsertPrefixKey insert.start = normalizeInsertPrefixKey first.start := by
      rw [← source.key, ← firstSource.key, keys insert inserted]
    have same := lowerTokens_of_key_eq source.trimmed firstSource.trimmed run run' key
    rw [tokens, tokens'] at same
    apply targetOf_eq same
    have alike := spelled insert inserted
    obtain ⟨rest, readHead, -, -⟩ := readInsert_cases source.read
    obtain ⟨rest', readHead', -, -⟩ := readInsert_cases firstSource.read
    rw [spellsTablesAlike, readHead, readHead'] at alike
    simp only [Bool.or_eq_true, bne_iff_ne, beq_iff_eq] at alike
    tauto

/-! ## The loop over the statements -/

/-- The statements that a batch was made of. -/
structure BatchOf (profile : SqlDialectProfile) (batch : PendingInsertBatch)
    (first : MergeableInsert) (inserts : List MergeableInsert) : Prop where
  start : batch.start = first.start
  key : batch.startKey = first.startKey
  values : batch.values = (first :: inserts).map MergeableInsert.values
  sources : batch.sourceSqls = (first :: inserts).map MergeableInsert.sql
  count : batch.sourceStatementCount = (first :: inserts).length
  keys : ∀ insert ∈ first :: inserts, insert.startKey = first.startKey
  parsed : ∀ insert ∈ first :: inserts, ∃ sql, parseMergeableInsert sql profile = some insert

variable {profile : SqlDialectProfile}

theorem BatchOf.new (parsed : parseMergeableInsert sql profile = some insert) :
    BatchOf profile (.new insert) insert [] where
  start := rfl
  key := rfl
  values := rfl
  sources := rfl
  count := rfl
  keys := by simp
  parsed := by simpa using ⟨sql, parsed⟩

theorem BatchOf.push {batch : PendingInsertBatch} {first : MergeableInsert}
    (h : BatchOf profile batch first inserts)
    (parsed : parseMergeableInsert sql profile = some insert)
    (accepts : batch.canAccept insert = true) :
    BatchOf profile (batch.push insert) first (inserts ++ [insert]) where
  start := h.start
  key := h.key
  values := by simp [PendingInsertBatch.push, h.values]
  sources := by simp [PendingInsertBatch.push, h.sources]
  count := by simp [PendingInsertBatch.push, h.count]
  keys := by
    have same : insert.startKey = first.startKey := by
      simp only [PendingInsertBatch.canAccept, and_eq_true, beq_iff_eq] at accepts
      rw [← accepts.1.1, h.key]
    rw [← cons_append, forall_mem_append, forall_mem_singleton]
    exact ⟨h.keys, same⟩
  parsed := by
    rw [← cons_append, forall_mem_append, forall_mem_singleton]
    exact ⟨h.parsed, sql, parsed⟩

section Loop

variable (profile) (prepare : Str → SqlFileStatementAction)

/-- What the import keeps of a statement. -/
def sourceOf (statement : Str) : Str :=
  match prepare statement with
  | .skip => trim statement
  | .execute sql =>
    if (parseMergeableInsert sql profile).isSome then
      trimEndSemicolons (leadingExecutableSqlWithOptions sql profile)
    else sql

/-- A batch with the statements that went into it. -/
structure Holds (group : List Str) (batch : PendingInsertBatch) : Prop where
  made : ∃ first inserts, BatchOf profile batch first inserts
  inserts : ∀ statement ∈ group,
    ∃ sql, prepare statement = .execute sql ∧ (parseMergeableInsert sql profile).isSome
  sources : batch.sourceSqls = group.map (sourceOf profile prepare)
  count : batch.sourceStatementCount = group.length
  few : group.length ≤ sqlFileInsertBatchMaxStatements
  small : 1 < group.length → batch.byteLen ≤ sqlFileInsertBatchMaxBytes
  bytes : byteLength batch.start + byteLength (joinWith ",\n".toList batch.values) + 16 ≤
    batch.byteLen

/-- What a statement of the result stands for. -/
inductive Entry : List Str → SqlFileImportStatement → Prop where
  | skipped {statement : Str} (skip : prepare statement = .skip) :
    Entry [statement] (.single .skip (trim statement))
  | kept {statement sql : Str} (run : prepare statement = .execute sql)
    (other : parseMergeableInsert sql profile = none) : Entry [statement] (.single .execute sql)
  | joined {group : List Str} {batch : PendingInsertBatch}
    (holds : Holds profile prepare group batch)
    (small : 1 < group.length → byteLength batch.toSql ≤ sqlFileInsertBatchMaxBytes) :
    Entry group ⟨.execute, batch.toSql, batch.sourceSqls, batch.sourceStatementCount⟩

/-- The statements, cut into groups that the results stand for. -/
def Covers (statements : List Str) (results : List SqlFileImportStatement) : Prop :=
  ∃ groups, groups.flatten = statements ∧ List.Forall₂ (Entry profile prepare) groups results

/-- The statements of the batch that is pending. -/
inductive Pending : Option PendingInsertBatch → List Str → Prop where
  | none : Pending none []
  | some {batch : PendingInsertBatch} {group : List Str}
    (holds : Holds profile prepare group batch) : Pending (some batch) group

variable {prepare profile} {statement : Str} {group statements : List Str}
  {batch : PendingInsertBatch} {pending : Option PendingInsertBatch}
  {results : List SqlFileImportStatement}

theorem byteLength_append (s t : Str) : byteLength (s ++ t) = byteLength s + byteLength t := by
  simp [byteLength]

theorem byteLength_joinWith (sep v : Str) (vs : List Str) :
    byteLength (joinWith sep (vs ++ [v])) ≤
      byteLength (joinWith sep vs) + byteLength sep + byteLength v := by
  induction vs with
  | nil => simp [joinWith]
  | cons w vs ih =>
    cases vs with
    | nil => simp [joinWith, byteLength_append, Nat.add_assoc]
    | cons x vs =>
      simp only [cons_append, joinWith, byteLength_append] at ih ⊢
      omega

theorem sourceOf_insert (run : prepare statement = .execute sql)
    (parsed : parseMergeableInsert sql profile = some insert) :
    sourceOf profile prepare statement = insert.sql := by
  simp only [sourceOf, run, parsed, isSome_some, if_true]
  exact (parse_cases parsed).1.symm

theorem Holds.new (run : prepare statement = .execute sql)
    (parsed : parseMergeableInsert sql profile = some insert) :
    Holds profile prepare [statement] (.new insert) where
  made := ⟨insert, [], .new parsed⟩
  inserts := by simp [run, parsed]
  sources := by simp [PendingInsertBatch.new, sourceOf_insert run parsed]
  count := rfl
  few := by simp [sqlFileInsertBatchMaxStatements]
  small := by simp
  bytes := by simp [PendingInsertBatch.new, joinWith]

theorem Holds.push (h : Holds profile prepare group batch) (run : prepare statement = .execute sql)
    (parsed : parseMergeableInsert sql profile = some insert)
    (accepts : batch.canAccept insert = true) :
    Holds profile prepare (group ++ [statement]) (batch.push insert) := by
  obtain ⟨first, inserts, made⟩ := h.made
  have bytes := h.bytes
  have comma : byteLength ",\n".toList = 2 := by decide
  have longer := byteLength_joinWith ",\n".toList insert.values batch.values
  have room := accepts
  simp only [PendingInsertBatch.canAccept, and_eq_true, decide_eq_true_eq, h.count] at room
  constructor
  · exact ⟨first, inserts ++ [insert], made.push parsed accepts⟩
  · rw [forall_mem_append, forall_mem_singleton]
    exact ⟨h.inserts, sql, run, by simp [parsed]⟩
  · simp [PendingInsertBatch.push, h.sources, sourceOf_insert run parsed]
  · simp [PendingInsertBatch.push, h.count]
  · rw [length_append]
    exact room.1.2
  · exact fun _ => room.2
  · simp only [PendingInsertBatch.push]
    omega

/-- The estimate of the batch is no less than its text, which has eight bytes for the keyword. -/
theorem Holds.entry (h : Holds profile prepare group batch) : Entry profile prepare group
    ⟨.execute, batch.toSql, batch.sourceSqls, batch.sourceStatementCount⟩ := by
  refine .joined h fun several => ?_
  have bytes := h.bytes
  have small := h.small several
  have keyword : byteLength " VALUES\n".toList = 8 := by decide
  have many : ¬ (batch.sourceStatementCount == 1) = true := by
    rw [h.count, beq_iff_eq]
    omega
  rw [PendingInsertBatch.toSql, if_neg many, byteLength_append, byteLength_append]
  omega

theorem Covers.cons {result : SqlFileImportStatement} (entry : Entry profile prepare group result)
    (later : Covers profile prepare statements results) :
    Covers profile prepare (group ++ statements) (result :: results) := by
  obtain ⟨groups, same, entries⟩ := later
  exact ⟨group :: groups, by rw [flatten_cons, same], .cons entry entries⟩

theorem Covers.flush (later : Covers profile prepare statements results)
    (held : Pending profile prepare pending group) :
    Covers profile prepare (group ++ statements) (flushPendingInsert pending ++ results) := by
  cases held with
  | none => exact later
  | some holds => exact later.cons holds.entry

/-- Over the statements, with the group of the batch that is pending in front of them. -/
theorem optimizeFrom_covers (held : Pending profile prepare pending group)
    (statements : List Str) : Covers profile prepare (group ++ statements)
      (optimizeFrom prepare profile pending statements) := by
  induction statements generalizing pending group with
  | nil => simpa [optimizeFrom] using Covers.flush ⟨[], rfl, .nil⟩ held
  | cons statement statements ih =>
    rw [optimizeFrom.eq_def]
    dsimp only
    split
    · rename_i skip
      exact ((ih .none).cons (.skipped skip)).flush held
    · rename_i sql run
      split
      · rename_i other
        exact ((ih .none).cons (.kept run other)).flush held
      · rename_i insert parsed
        have fresh := ih (.some (.new run parsed))
        cases held with
        | none => exact fresh
        | some holds =>
          dsimp only
          split
          · rename_i accepts
            simpa using ih (.some (holds.push run parsed accepts))
          · exact fresh.flush (.some holds)

theorem Entry.kept_sources {result : SqlFileImportStatement} (h : Entry profile prepare group result) :
    result.sourceSqls = group.map (sourceOf profile prepare) ∧
      result.sourceStatementCount = group.length := by
  cases h with
  | skipped skip => simp [SqlFileImportStatement.single, sourceOf, skip]
  | kept run other => simp [SqlFileImportStatement.single, sourceOf, run, other]
  | joined holds => exact ⟨holds.sources, holds.count⟩

theorem Covers.kept_sources (h : Covers profile prepare statements results) :
    results.flatMap (·.sourceSqls) = statements.map (sourceOf profile prepare) ∧
      (results.map (·.sourceStatementCount)).sum = statements.length := by
  obtain ⟨groups, rfl, entries⟩ := h
  induction entries with
  | nil => simp
  | cons entry _ ih => simp [entry.kept_sources, ih]

/-- Every statement is kept once and in order, and what is joined are neighbouring INSERTs of
bounded number and size. -/
theorem import_keeps_statements (prepare : Str → SqlFileStatementAction)
    (profile : SqlDialectProfile) (statements : List Str) :
    let results := optimizeSqlFileImportStatements prepare profile statements
    results.flatMap (·.sourceSqls) = statements.map (sourceOf profile prepare) ∧
      (results.map (·.sourceStatementCount)).sum = statements.length ∧
      Covers profile prepare statements results := by
  have covers := optimizeFrom_covers (Pending.none : Pending profile prepare _ _) statements
  exact ⟨covers.kept_sources.1, covers.kept_sources.2, covers⟩

end Loop

theorem exists_readings
    (parsed : ∀ insert ∈ inserts, ∃ sql, parseMergeableInsert sql profile = some insert)
    (joinable : ∀ insert ∈ inserts, isJoinable server insert.sql = true) :
    ∃ readings, List.Forall₂ (Source server) inserts readings := by
  induction inserts with
  | nil => exact ⟨[], .nil⟩
  | cons insert inserts ih =>
    obtain ⟨readings, sources⟩ := ih (forall_mem_cons.mp parsed).2
      (forall_mem_cons.mp joinable).2
    obtain ⟨sql, here⟩ := parsed insert (mem_cons_self ..)
    obtain ⟨reading, source⟩ := exists_source here (joinable insert (mem_cons_self ..))
    exact ⟨reading :: readings, .cons source sources⟩

variable {joined : Str}

theorem not_joinsRows_of_tail
    (clause : (readInsert server joined).any (fun whole => whole.tail.isEmpty) = false) :
    ¬ JoinsRows server sources joined := by
  rintro ⟨readings, -, whole, read, empty, -⟩
  rw [read, any_some, empty] at clause
  cases clause

theorem not_joinsRows_of_target {source : Str} {reading whole : InsertReading}
    (read : readInsert server source = some reading)
    (readJoined : readInsert server joined = some whole)
    (differ : targetOf server reading.head ≠ targetOf server whole.head) :
    ¬ JoinsRows server (sources ++ [source]) joined := by
  rintro ⟨readings, each, whole', read', -, -, targets⟩
  rw [readJoined] at read'
  cases read'
  obtain ⟨reading', member, same, -⟩ : ∃ reading' ∈ readings,
      readInsert server source = some reading' ∧ reading'.tail = [] :=
    exists_of_mem_right (List.Forall₂.flip each) (by simp)
  rw [read] at same
  cases same
  exact differ (targets _ member)

end Dbx.Guarantees.MergedInserts
