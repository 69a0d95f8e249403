import Dbx.Guarantees.StrippedText

/-!
# The gate in front of EXPLAIN

`isSafeExplainSqlForDatabase` against the lexing of MySQL, PostgreSQL and SQL Server. A text
that passes and that the database reads as the stripper does (`isUnambiguous`) is one
statement without a word that writes (`safe_isHarmless`). Statements are what stands between
semicolons.

Outside the condition the server and the stripper read a quote or a comment differently; the
counterexample hides a second statement from the gate for each of the three databases.
-/
namespace Dbx.Guarantees.ExplainGate

open Dbx.Source Dbx.Lib.Text Dbx.Lib.Lexing StrippedText List
open Bool (or_eq_true and_eq_true not_eq_true' false_eq_true or_eq_false_iff not_eq_true)

/-! ## The three dialects -/

def mysqlRules : Rules where
  identChar c := c.isAlphanum || c == '_' || c == '$' || !decide (c.val < 128)
  identChar_of_word c word := by
    rw [Bool.or_eq_true, Bool.or_eq_true]
    exact .inl (.inl word)
  identChar_blank := by decide
  hashComments := true
  dashNeedsBlank := true
  nestedComments := false
  returnEndsLine := false
  executableComments := true
  backslashEscapes := true
  escapeStrings := false
  alternativeQuotes := false
  backticks := true
  brackets := false
  dollarQuotes := false
  numbersEndAtLetters := false

def postgresRules : Rules where
  identChar c := c.isAlphanum || c == '_' || c == '$' || !decide (c.val < 128)
  identChar_of_word c word := by
    rw [Bool.or_eq_true, Bool.or_eq_true]
    exact .inl (.inl word)
  identChar_blank := by decide
  hashComments := false
  dashNeedsBlank := false
  nestedComments := true
  returnEndsLine := true
  executableComments := false
  backslashEscapes := false
  escapeStrings := true
  alternativeQuotes := false
  backticks := false
  brackets := false
  dollarQuotes := true
  numbersEndAtLetters := true

/-- SQL Server's rules, with its letters outside ASCII. -/
def sqlServerRules (letter : Char → Bool) : Rules where
  identChar c :=
    c.isAlphanum || c == '_' || c == '$' || c == '#' || c == '@' ||
      !decide (c.val < 128) && letter c
  identChar_of_word c word := by
    rw [Bool.or_eq_true, Bool.or_eq_true, Bool.or_eq_true, Bool.or_eq_true]
    exact .inl (.inl (.inl (.inl word)))
  identChar_blank := rfl
  hashComments := false
  dashNeedsBlank := false
  nestedComments := true
  returnEndsLine := false
  executableComments := false
  backslashEscapes := false
  escapeStrings := false
  alternativeQuotes := false
  backticks := false
  brackets := true
  dollarQuotes := false
  numbersEndAtLetters := true

def explainDatabases : List DatabaseType := [.mysql, .postgres, .sqlServer]

def explainRules (letter : Char → Bool) : DatabaseType → Rules
  | .mysql => mysqlRules
  | .postgres => postgresRules
  | _ => sqlServerRules letter

/-! ## Statements and words -/

section

variable (rules : Rules)

/-- The parts between semicolons. -/
def statementParts (pieces : List Piece) : List (List Piece) := pieces.splitOn (some ';')

/-- One statement, and none of the words that write. -/
def isHarmless (sql : Str) : Bool :=
  let pieces := rules.lex sql
  ((statementParts pieces).filter fun part => !part.all isBlank).length == 1 &&
    !dangerousWords.any fun word => (rules.words (shown pieces)).contains word.toList

/-- The server reads the text as the stripper does, without executable comments, without
quoted text that stands alone behind a semicolon and without a word that writes right behind
the digits of a number. -/
def isUnambiguous (sql : Str) : Bool :=
  agrees rules sql && !opensExecutableComment .code sql &&
    ((statementParts (rules.lex sql)).drop 1).all (fun part =>
      !part.contains none || part.any fun piece => piece.isSome && !isBlank piece) &&
    !(rules.numbersEndAtLetters && dangerousWords.any fun word =>
      behindDigits (stripSqlCommentsAndLiterals sql) word.toList)

end

/-! ## The text without its trailing semicolons -/

/-- A blank or a semicolon. -/
def isQuiet (c : Char) : Bool := isWhitespace c || c == ';'

theorem isQuiet_of_whitespace {c : Char} (h : isWhitespace c = true) : isQuiet c = true := by
  rw [isQuiet, h, Bool.true_or]

theorem all_isQuiet {t : Str} (h : t.all isWhitespace = true) : t.all isQuiet = true := by
  rw [all_eq_true] at h ⊢
  exact fun c member => isQuiet_of_whitespace (h c member)

/-- What is dropped from the end is quiet, if all dropped characters are. -/
theorem exists_dropped {p : Char → Bool} (quiet : ∀ c, p c = true → isQuiet c = true) (t : Str) :
    ∃ tail, t = t.rdropWhile p ++ tail ∧ tail.all isQuiet = true := by
  refine ⟨t.rtakeWhile p, List.rdropWhile_append_rtakeWhile.symm, ?_⟩
  rw [all_eq_true]
  intro c member
  exact quiet c (mem_rtakeWhile_imp member)

/-- The text is its source with blanks before it, and blanks and semicolons behind it. -/
theorem source_split (sql : Str) :
    ∃ lead tail, sql = lead ++ (stripTrailingSemicolons (trim sql) ++ tail) ∧
      lead.all isWhitespace = true ∧ tail.all isQuiet = true := by
  have blank : ∀ c, isWhitespace c = true → isQuiet c = true := fun _ => isQuiet_of_whitespace
  obtain ⟨tail₁, same₁, quiet₁⟩ := exists_dropped blank (trimStart sql)
  obtain ⟨tail₂, same₂, quiet₂⟩ := exists_dropped blank (trim sql)
  obtain ⟨tail₃, same₃, quiet₃⟩ := exists_dropped (p := (· == ';'))
    (fun c semicolon => by rw [isQuiet, semicolon, Bool.or_true]) (trimEnd (trim sql))
  obtain ⟨tail₄, same₄, quiet₄⟩ := exists_dropped blank
    ((trimEnd (trim sql)).rdropWhile (· == ';'))
  refine ⟨sql.takeWhile isWhitespace, tail₄ ++ (tail₃ ++ (tail₂ ++ tail₁)), ?_, by simp, ?_⟩
  · calc sql = sql.takeWhile isWhitespace ++ trimStart sql :=
          List.takeWhile_append_dropWhile.symm
      _ = sql.takeWhile isWhitespace ++ (trim sql ++ tail₁) := congrArg _ same₁
      _ = sql.takeWhile isWhitespace ++ ((trimEnd (trim sql) ++ tail₂) ++ tail₁) :=
          congrArg (fun t => _ ++ (t ++ tail₁)) same₂
      _ = sql.takeWhile isWhitespace ++
            (((trimEnd (trim sql)).rdropWhile (· == ';') ++ tail₃ ++ tail₂) ++ tail₁) :=
          congrArg (fun t => _ ++ (t ++ tail₂ ++ tail₁)) same₃
      _ = sql.takeWhile isWhitespace ++
            ((stripTrailingSemicolons (trim sql) ++ tail₄ ++ tail₃ ++ tail₂) ++ tail₁) :=
          congrArg (fun t => _ ++ (t ++ tail₃ ++ tail₂ ++ tail₁)) same₄
      _ = _ := by simp
  · simp [quiet₁, quiet₂, quiet₃, quiet₄]

/-! ## The stripped text without them -/

theorem beq_of_quiet {c : Char} (quiet : isQuiet c = true) {x : Char} (loud : isQuiet x = false) :
    (c == x) = false := by
  rw [beq_eq_false_iff_ne]
  rintro rfl
  rw [quiet] at loud
  cases loud

theorem startsStripped_of_quiet {c : Char} (quiet : isQuiet c = true) (next : Option Char) :
    startsStripped c next = false := by
  have other := fun x => @beq_of_quiet c quiet x
  simp [startsStripped, other '\'' (by decide), other '"' (by decide), other '\x60' (by decide),
    other '#' (by decide), other '-' (by decide), other '/' (by decide)]

theorem stripFrom_lead {lead : Str} (blank : lead.all isWhitespace = true) (text : Str) :
    stripFrom .code (lead ++ text) = lead ++ stripFrom .code text := by
  induction lead with
  | nil => rfl
  | cons c lead ih =>
    rw [all_cons, and_eq_true] at blank
    have step := startsStripped_of_quiet (isQuiet_of_whitespace blank.1) (lead ++ text).head?
    rw [cons_append, stripFrom, stripStep, stripCodeStep_of_not_starts step]
    exact congrArg (c :: ·) (ih blank.2)

/-- Two next characters that only differ in quiet ones. -/
def SameLoud (next next' : Option Char) : Prop :=
  ∀ x : Char, isQuiet x = false → (next == some x) = (next' == some x)

theorem sameLoud_append (rest : Str) {tail : Str} (quiet : tail.all isQuiet = true) :
    SameLoud (rest ++ tail).head? rest.head? := by
  intro x loud
  cases rest with
  | cons c rest => rfl
  | nil =>
    cases tail with
    | nil => rfl
    | cons c tail =>
      rw [all_cons, and_eq_true] at quiet
      simpa using beq_of_quiet quiet.1 loud

theorem stripStep_sameLoud {next next' : Option Char} (same : SameLoud next next')
    (mode : StripMode) (ch : Char) : stripStep mode ch next = stripStep mode ch next' := by
  have dash := same '-' (by decide)
  have star := same '*' (by decide)
  have slash := same '/' (by decide)
  have single := same '\'' (by decide)
  have double := same '"' (by decide)
  have back := same '\x60' (by decide)
  cases mode <;>
    simp only [stripStep, stripCodeStep, stripQuoteStep, dash, star, slash, single, double, back]

theorem stripFrom_quiet (mode : StripMode) {tail : Str} (quiet : tail.all isQuiet = true) :
    (stripFrom mode tail).all isQuiet = true := by
  induction tail generalizing mode with
  | nil => rfl
  | cons c tail ih =>
    rw [all_cons, and_eq_true] at quiet
    rw [stripFrom, all_append, and_eq_true]
    refine ⟨?_, ih _ quiet.2⟩
    cases mode with
    | code =>
      rw [stripStep, stripCodeStep_of_not_starts (startsStripped_of_quiet quiet.1 _)]
      simp [quiet.1]
    | lineComment | blockComment =>
      simp only [stripStep]
      split <;> decide
    | singleQuote | doubleQuote | backtick => exact (by decide : [' '].all isQuiet = true)
    | skip mode => rfl

theorem stripFrom_append_quiet (mode : StripMode) (text : Str) {tail : Str}
    (quiet : tail.all isQuiet = true) :
    ∃ rest, stripFrom mode (text ++ tail) = stripFrom mode text ++ rest ∧
      rest.all isQuiet = true := by
  induction text generalizing mode with
  | nil => exact ⟨stripFrom mode tail, rfl, stripFrom_quiet mode quiet⟩
  | cons c text ih =>
    rw [cons_append, stripFrom, stripStep_sameLoud (sameLoud_append text quiet)]
    obtain ⟨rest, same, quietRest⟩ := ih (stripStep mode c text.head?).next
    refine ⟨rest, ?_, quietRest⟩
    rw [same, stripFrom, append_assoc]

/-- The stripped text is the stripped source between quiet characters. -/
theorem strip_split {sql : Str} : ∃ lead rest, stripSqlCommentsAndLiterals sql =
        lead ++ (stripSqlCommentsAndLiterals (stripTrailingSemicolons (trim sql)) ++ rest) ∧
      lead.all isWhitespace = true ∧ rest.all isQuiet = true := by
  obtain ⟨lead, tail, same, blank, quiet⟩ := source_split sql
  obtain ⟨rest, strip, quietRest⟩ :=
    stripFrom_append_quiet .code (stripTrailingSemicolons (trim sql)) quiet
  refine ⟨lead, rest, ?_, blank, quietRest⟩
  calc stripFrom .code sql
      = stripFrom .code (lead ++ (stripTrailingSemicolons (trim sql) ++ tail)) :=
        congrArg (stripFrom .code) same
    _ = _ := by rw [stripFrom_lead blank, strip]; rfl

/-! ## Words of the source -/

/-- Text without quiet characters stands in the loud middle. -/
theorem middle_of_append {lead middle rest front found back : Str}
    (quietLead : lead.all isQuiet = true) (quietRest : rest.all isQuiet = true)
    (nonempty : found ≠ []) (loud : ∀ c ∈ found, isQuiet c = false)
    (same : lead ++ (middle ++ rest) = front ++ (found ++ back)) :
    ∃ front' back', middle = front' ++ (found ++ back') ∧ front' <:+ front ∧ back' <+: back := by
  rw [all_eq_true] at quietLead quietRest
  have first : ∃ front', front = lead ++ front' ∧ middle ++ rest = front' ++ (found ++ back) := by
    rcases append_eq_append_iff.mp same with ⟨front', inFront, rest'⟩ | ⟨excess, inLead, rest'⟩
    · exact ⟨front', inFront, rest'⟩
    cases excess with
    | nil =>
      rw [append_nil] at inLead
      exact ⟨[], by simp [inLead], by simpa using rest'.symm⟩
    | cons c excess =>
      -- The word would start inside the quiet lead.
      exfalso
      cases found with
      | nil => exact nonempty rfl
      | cons d found =>
        rw [cons_append, cons_append, cons.injEq] at rest'
        have quiet := quietLead c (by rw [inLead]; simp)
        rw [← rest'.1, loud d mem_cons_self] at quiet
        cases quiet
  obtain ⟨front', rfl, same'⟩ := first
  rw [← append_assoc] at same'
  rcases append_eq_append_iff.mp same' with ⟨excess, inFound, inRest⟩ | ⟨back', inMiddle, inBack⟩
  · cases excess with
    | nil =>
      rw [append_nil] at inFound
      exact ⟨front', [], by simp [← inFound], suffix_append _ _, nil_prefix⟩
    | cons c excess =>
      -- The word would end inside the quiet rest.
      exfalso
      have ends := congrArg getLast? inFound
      rw [getLast?_append_of_ne_nil _ nonempty,
        getLast?_append_of_ne_nil _ (cons_ne_nil c excess)] at ends
      obtain ⟨d, last⟩ : ∃ d, (c :: excess).getLast? = some d := ⟨_, getLast?_cons⟩
      have quiet := quietRest d
        (by rw [inRest]; exact mem_append_left _ (mem_of_getLast? last))
      rw [loud d (mem_of_getLast? (ends.trans last))] at quiet
      cases quiet
  · exact ⟨front', back', by rw [inMiddle, append_assoc], suffix_append _ _,
      ⟨rest, inBack.symm⟩⟩

theorem getLast?_all_of_suffix {p : Char → Bool} {front front' : Str} (suffix : front' <:+ front)
    (all : front.getLast?.all p = true) : front'.getLast?.all p = true := by
  obtain ⟨before, rfl⟩ := suffix
  cases front' with
  | nil => rfl
  | cons c front' => simpa [getLast?_append, getLast?_cons] using all

theorem head?_all_of_isPrefix {p : Char → Bool} {back back' : Str} (front : back' <+: back)
    (all : back.head?.all p = true) : back'.head?.all p = true := by
  obtain ⟨after, rfl⟩ := front
  cases back' with
  | nil => rfl
  | cons c back' => simpa using all

theorem isQuiet_of_word {c : Char} (word : isWordByte c = true) : isQuiet c = false := by
  have small : c.toNat < 128 := by
    rw [isWordByte, or_eq_true, beq_iff_eq] at word
    obtain alphanum | underscore := word
    · exact isAlphanum_lt alphanum
    · rw [underscore]; decide
  exact @forall_char_lt 128 (fun c => isWordByte c = true → isQuiet c = false) (by decide) c small
    word

variable {tables : CaseTables} {rules : Rules}

/-- A word of the code is found in the stripped source. -/
theorem containsWord_source (keeps : KeepsBoundaries tables rules) {sql word : Str}
    (plain : isPlainWord word = true) (agree : agrees rules sql = true)
    (noDigits : rules.numbersEndAtLetters = true →
      behindDigits (stripSqlCommentsAndLiterals sql) word = false)
    (member : word ∈ rules.words (shown (rules.lex sql))) :
    containsWord (tables.toLowercase
      (stripSqlCommentsAndLiterals (stripTrailingSemicolons (trim sql)))) word = true := by
  obtain ⟨front, found, back, same, rfl, left, right⟩ :=
    exists_bounded_of_mem_words plain (covers_strip agree) noDigits member
  obtain ⟨lead, rest, split, blank, quiet⟩ := strip_split
  rw [split] at same
  have letters := plain
  rw [isPlainWord, and_eq_true, not_eq_true', all_eq_true] at letters
  have loud : ∀ c ∈ found, isQuiet c = false := by
    intro c member
    exact isQuiet_of_word (of_toLower_isLower (letters.2 _ (mem_map_of_mem member))).2.1
  have nonempty : found ≠ [] := by
    rintro rfl
    simp at letters
  obtain ⟨front', back', middle, suffix, isPrefix⟩ :=
    middle_of_append (all_isQuiet blank) quiet nonempty loud same
  rw [middle]
  exact containsWord_of_bounded keeps plain (getLast?_all_of_suffix suffix left)
    (head?_all_of_isPrefix isPrefix right)

/-! ## No second statement -/

/-- Behind the first semicolon there are only quiet characters. -/
def quietAfter (t : Str) : Bool := (t.dropWhile (· != ';')).all isQuiet

theorem quietAfter_cons {c : Char} {t : Str} :
    quietAfter (c :: t) = if c == ';' then t.all isQuiet else quietAfter t := by
  unfold quietAfter
  by_cases semicolon : c = ';'
  · subst semicolon
    simp [isQuiet]
  · simp [semicolon]

theorem quietAfter_of_all {t : Str} (h : t.all isQuiet = true) : quietAfter t = true := by
  rw [all_eq_true] at h
  rw [quietAfter, all_eq_true]
  exact fun c member => h c ((dropWhile_sublist _).subset member)

theorem quietAfter_append_right {t rest : Str} (h : quietAfter t = true)
    (quiet : rest.all isQuiet = true) : quietAfter (t ++ rest) = true := by
  induction t with
  | nil => exact quietAfter_of_all quiet
  | cons c t ih =>
    rw [quietAfter_cons] at h
    rw [cons_append, quietAfter_cons]
    split at h
    · rw [if_pos ‹_›, all_append, h, quiet]
      rfl
    · rw [if_neg ‹_›]
      exact ih h

theorem quietAfter_append_left {lead t : Str} (blank : lead.all isWhitespace = true) :
    quietAfter (lead ++ t) = quietAfter t := by
  induction lead with
  | nil => rfl
  | cons c lead ih =>
    rw [all_cons, and_eq_true] at blank
    have other : (c == ';') = false := by
      rw [beq_eq_false_iff_ne]
      intro semicolon
      rw [semicolon] at blank
      exact absurd blank.1 (by decide)
    rw [cons_append, quietAfter_cons, other]
    exact ih blank.2

theorem all_of_covers {inside : Bool} {less more : Str} (covers : Covers separates inside less more)
    (quiet : more.all isQuiet = true) : less.all isQuiet = true := by
  induction covers with
  | nil => rfl
  | same c _ ih =>
    rw [all_cons, and_eq_true] at quiet ⊢
    exact ⟨quiet.1, ih quiet.2⟩
  | opens _ _ ih | inside _ _ ih | closes _ _ ih =>
    rw [all_cons, and_eq_true] at quiet ⊢
    exact ⟨by decide, ih quiet.2⟩

theorem quietAfter_of_covers {inside : Bool} {less more : Str}
    (covers : Covers separates inside less more) (quiet : quietAfter more = true) :
    quietAfter less = true := by
  have blank : ∀ t, quietAfter (' ' :: t) = quietAfter t := fun t => quietAfter_cons
  induction covers with
  | nil => rfl
  | same c rest ih =>
    rw [quietAfter_cons] at quiet ⊢
    split at quiet
    · rw [if_pos ‹_›]
      exact all_of_covers rest quiet
    · rw [if_neg ‹_›]
      exact ih quiet
  | opens _ rest ih | inside _ rest ih | closes _ rest ih =>
    rw [blank]
    rw [quietAfter_cons] at quiet
    split at quiet
    · exact quietAfter_of_all (all_of_covers rest quiet)
    · exact ih quiet

theorem all_whitespace_of_trim {t : Str} (empty : (trim t).isEmpty = true) :
    t.all isWhitespace = true := by
  rw [List.isEmpty_iff, trim, trimEnd, rdropWhile_eq_nil_iff] at empty
  have start := takeWhile_append_dropWhile (p := isWhitespace) (l := t)
  rw [← start, all_append, and_eq_true]
  constructor
  · simp
  · rw [all_eq_true]
    exact fun c member => empty c member

/-- The gate lets no loud text pass behind a semicolon of the stripped source. -/
theorem quietAfter_of_noExtra {source : Str} (noExtra : hasExtraStatementAfterSemicolon source = false) :
    quietAfter (stripSqlCommentsAndLiterals source) = true := by
  unfold hasExtraStatementAfterSemicolon at noExtra
  generalize stripSqlCommentsAndLiterals source = t at noExtra
  rw [splitOn, splitOnP_eq, drop_one, tail_cons, any_eq_false] at noExtra
  rw [quietAfter, all_eq_true]
  intro c member
  have same : t.dropWhile (· != ';') = t.dropWhile (!(· == ';') ·) := rfl
  rw [same] at member
  cases after : t.dropWhile (!(· == ';') ·) with
  | nil =>
    rw [after] at member
    cases member
  | cons sep rest =>
    rw [after] at member noExtra
    have isSep : sep = ';' := by simpa using of_dropWhile_cons after
    obtain here | later := mem_cons.mp member
    · rw [here, isSep]; decide
    by_cases semicolon : c = ';'
    · rw [semicolon]; decide
    obtain ⟨part, inParts, inPart⟩ :=
      mem_splitOnP (p := (· == ';')) |>.mpr ⟨later, by simpa using semicolon⟩
    have blank := all_whitespace_of_trim (by simpa using noExtra part inParts)
    exact isQuiet_of_whitespace (all_eq_true.mp blank c inPart)

theorem shown_dropWhile_semicolon (pieces : List Piece) :
    shown (pieces.dropWhile (!(· == some ';') ·)) = (shown pieces).dropWhile (· != ';') := by
  induction pieces with
  | nil => rfl
  | cons piece pieces ih =>
    by_cases semicolon : piece = some ';'
    · subst semicolon
      simp [shown]
    have loud : piece.getD ' ' ≠ ';' := by
      cases piece with
      | none => simp
      | some c => simpa using semicolon
    simpa [shown, semicolon, loud] using ih

/-- The parts behind the first one have blanks and quoted text only. -/
theorem parts_quiet {pieces : List Piece} (quiet : quietAfter (shown pieces) = true) :
    ∀ part ∈ (statementParts pieces).drop 1, ∀ piece ∈ part, piece = none ∨ isBlank piece = true := by
  intro part inParts piece inPart
  rw [statementParts, splitOn, splitOnP_eq, drop_one, tail_cons] at inParts
  rw [quietAfter, ← shown_dropWhile_semicolon, all_eq_true] at quiet
  cases after : pieces.dropWhile (!(· == some ';') ·) with
  | nil =>
    rw [after] at inParts
    cases inParts
  | cons sep rest =>
    rw [after] at inParts quiet
    obtain ⟨inRest, noSep⟩ := mem_splitOnP.mp ⟨_, inParts, inPart⟩
    cases piece with
    | none => exact .inl rfl
    | some c =>
      have quietC := quiet c (mem_map.mpr ⟨some c, mem_cons_of_mem _ inRest, rfl⟩)
      rw [isQuiet, or_eq_true, beq_iff_eq] at quietC
      obtain blank | semicolon := quietC
      · exact .inr blank
      · simp [semicolon] at noSep

/-! ## At least one statement -/

/-- The mode of the lexer when the stripper of comments is in a mode. -/
def lexMode : CommentMode → Mode
  | .code => .code
  | .lineComment => .line
  | .blockComment => .block 0

theorem readMysqlExecutableCommentBody_none {text : Str} (tail : Str)
    (plain : isMysqlExecutableCommentStart ('/' :: '*' :: (text ++ tail)) = false) :
    readMysqlExecutableCommentBody text = none := by
  unfold readMysqlExecutableCommentBody
  split
  · cases plain
  · cases plain
  · rfl

/-- A character of code that starts no comment is code or quoted. -/
theorem codeStep_emit {word : Str} {ch : Char} {rest : Str}
    (noDash : (ch == '-' && rest.head? == some '-') = false) (noHash : (ch == '#') = false)
    (noSlash : (ch == '/' && rest.head? == some '*') = false) :
    (rules.codeStep word ch rest).emit = [none] ∨
      rules.codeStep word ch rest = ⟨[some ch], .code⟩ := by
  unfold Rules.codeStep
  simp only [noDash, noHash, noSlash, Bool.false_and, false_eq_true, if_false]
  repeat' split
  all_goals first | exact .inl rfl | exact .inr rfl

/-- From the mode on, the text is read as comments, blanks and semicolons. -/
structure ReadsQuiet (rules : Rules) (mode : Mode) (word text : Str) : Prop where
  agree : agreesFrom rules mode word text = true
  plain : opensExecutableComment (stripMode mode) text = false
  quiet : (rules.lexFrom mode word text).all (·.any isQuiet) = true

namespace ReadsQuiet

variable {mode : Mode} {word : Str} {ch : Char} {rest : Str}

section

variable (h : ReadsQuiet rules mode word (ch :: rest))
include h

theorem noParts : parts rules mode word ch rest = false := by
  have agree := h.agree
  rw [agreesFrom, and_eq_true, not_eq_true'] at agree
  exact agree.1

theorem emit : (rules.step mode word ch rest).emit.all (·.any isQuiet) = true := by
  have quiet := h.quiet
  rw [Rules.lexFrom, all_append, and_eq_true] at quiet
  exact quiet.1

theorem next : ReadsQuiet rules (rules.step mode word ch rest).next
      (rules.nextWord word (rules.step mode word ch rest).emit) rest := by
  have agree := h.agree
  have plain := h.plain
  have quiet := h.quiet
  rw [agreesFrom, and_eq_true] at agree
  rw [opensExecutableComment, or_eq_false_iff] at plain
  rw [Rules.lexFrom, all_append, and_eq_true] at quiet
  refine ⟨agree.2, ?_, quiet.2⟩
  rw [(step_covers h.noParts).2]
  exact plain.2

end

/-- The second character of a delimiter. -/
theorem silent {next : Mode} (h : ReadsQuiet rules (.silent next) word (ch :: rest)) :
    ReadsQuiet rules next [] rest := h.next

theorem notExecutable (h : ReadsQuiet rules .code word (ch :: rest)) :
    isMysqlExecutableCommentStart (ch :: rest) = false := by
  have plain := h.plain
  rw [opensExecutableComment, or_eq_false_iff] at plain
  simpa [stripMode] using plain.1

end ReadsQuiet

section

variable {tail : Str}

/-- What a text that is read as comments, blanks and semicolons keeps without its comments. -/
def CommentsOnly (rules : Rules) (tail : Str) (mode : CommentMode) (text : Str) : Prop :=
  ∀ word, ReadsQuiet rules (lexMode mode) word (text ++ tail) →
    (stripSqlCommentsFrom mode text).all isQuiet = true

theorem head?_eq_some {rest : Str} {c : Char} (h : (rest.head? == some c) = true) :
    rest = c :: rest.tail :=
  eq_cons_of_mem_head? (beq_iff_eq.mp h)

theorem commentsOnly_line (ch : Char) {rest : Str}
    (ih : ∀ mode, CommentsOnly rules tail mode rest) :
    CommentsOnly rules tail .lineComment (ch :: rest) := by
  intro word reads
  change ReadsQuiet rules .line word (ch :: (rest ++ tail)) at reads
  have noParts := reads.noParts
  have next := reads.next
  rw [parts] at noParts
  simp only [Rules.step, noParts, Bool.or_false] at next
  rw [stripSqlCommentsFrom]
  split
  · rw [if_pos ‹_›] at next
    rw [all_cons, and_eq_true]
    exact ⟨by decide, ih .code _ next⟩
  · rw [if_neg ‹_›] at next
    exact ih .lineComment _ next

variable (quietTail : tail.all isQuiet = true)

include quietTail in
theorem commentsOnly_block (ch : Char) {rest : Str} (ih : ∀ mode, CommentsOnly rules tail mode rest)
    (ihTail : ∀ mode, CommentsOnly rules tail mode rest.tail) :
    CommentsOnly rules tail .blockComment (ch :: rest) := by
  intro word reads
  change ReadsQuiet rules (.block 0) word (ch :: (rest ++ tail)) at reads
  have noParts := reads.noParts
  have next := reads.next
  rw [parts, or_eq_false_iff] at noParts
  simp only [Rules.step, noParts.2, false_eq_true, if_false,
    sameLoud_append rest quietTail '/' (by decide)] at next
  rw [stripSqlCommentsFrom]
  split
  · rename_i closes
    rw [if_pos closes] at next
    rw [and_eq_true] at closes
    rw [head?_eq_some closes.2] at next
    rw [all_cons, and_eq_true]
    exact ⟨by decide, ihTail .code _ next.silent⟩
  · rw [if_neg ‹_›] at next
    exact ih .blockComment _ next

include quietTail in
theorem commentsOnly_code (ch : Char) {rest : Str} (ih : ∀ mode, CommentsOnly rules tail mode rest)
    (ihTail : ∀ mode, CommentsOnly rules tail mode rest.tail) :
    CommentsOnly rules tail .code (ch :: rest) := by
  intro word reads
  change ReadsQuiet rules .code word (ch :: (rest ++ tail)) at reads
  have noParts := reads.noParts
  have next := reads.next
  simp only [parts, or_eq_false_iff] at noParts
  obtain ⟨⟨⟨⟨dash, hash⟩, slash⟩, -⟩, -⟩ := noParts
  have sameDash := sameLoud_append rest quietTail '-' (by decide)
  have sameStar := sameLoud_append rest quietTail '*' (by decide)
  rw [stripSqlCommentsFrom]
  by_cases isDash : (ch == '-' && rest.head? == some '-') = true
  · rw [sameDash, isDash, Bool.true_and, Bool.not_eq_false'] at dash
    rw [if_pos isDash]
    simp only [Rules.step, Rules.codeStep, sameDash, isDash, dash, Bool.true_and, if_true] at next
    rw [and_eq_true] at isDash
    rw [head?_eq_some isDash.2] at next
    exact ihTail .lineComment _ next.silent
  rw [if_neg isDash]
  by_cases isHash : (ch == '#') = true
  · rw [isHash, Bool.true_and, Bool.not_eq_false'] at hash
    rw [if_pos isHash]
    rw [not_eq_true] at isDash
    simp only [Rules.step, Rules.codeStep, sameDash, isDash, isHash, hash, Bool.false_and,
      Bool.true_and, if_true, if_false, false_eq_true] at next
    exact ih .lineComment _ next
  rw [if_neg isHash]
  by_cases isSlash : (ch == '/' && rest.head? == some '*') = true
  · have notExecutable := reads.notExecutable
    rw [if_pos isSlash]
    rw [not_eq_true] at isDash isHash
    rw [sameStar, isSlash, Bool.true_and] at slash
    simp only [Rules.step, Rules.codeStep, sameDash, sameStar, isDash, isHash, isSlash, slash,
      Bool.false_and, Bool.true_and, Bool.not_false, if_true, if_false, false_eq_true] at next
    rw [and_eq_true, beq_iff_eq] at isSlash
    rw [head?_eq_some isSlash.2] at next
    rw [isSlash.1, head?_eq_some isSlash.2, cons_append] at notExecutable
    have noBody := readMysqlExecutableCommentBody_none tail notExecutable
    split
    · rename_i found
      rw [noBody] at found
      cases found
    · exact ihTail .blockComment _ next.silent
  rw [if_neg isSlash]
  rw [not_eq_true] at isDash isHash isSlash
  rw [← sameDash] at isDash
  rw [← sameStar] at isSlash
  -- A quoted character would not be quiet.
  have emit := reads.emit
  obtain quoted | kept := @codeStep_emit rules word ch (rest ++ tail) isDash isHash isSlash
  · rw [Rules.step, quoted] at emit
    cases emit
  · rw [Rules.step, kept] at emit next
    rw [all_cons, and_eq_true]
    exact ⟨by simpa using emit, ih .code _ next⟩

include quietTail in
theorem commentsOnly (mode : CommentMode) (text : Str) : CommentsOnly rules tail mode text := by
  induction hn : text.length using Nat.strong_induction_on generalizing mode text with
  | _ n ih =>
    cases text with
    | nil =>
      intro word _
      cases mode <;> simp [stripSqlCommentsFrom]
    | cons ch rest =>
      rw [length_cons] at hn
      have here : ∀ mode, CommentsOnly rules tail mode rest :=
        fun mode => ih rest.length (by omega) mode rest rfl
      have skipped : ∀ mode, CommentsOnly rules tail mode rest.tail := by
        intro mode
        apply ih rest.tail.length _ mode rest.tail rfl
        rw [length_tail]
        omega
      cases mode with
      | code => exact commentsOnly_code quietTail ch here skipped
      | lineComment => exact commentsOnly_line ch here
      | blockComment => exact commentsOnly_block quietTail ch here skipped

end

/-- Blanks in front of the text do not matter. -/
theorem ReadsQuiet.of_lead {lead text : Str} (blank : lead.all isWhitespace = true) {word : Str}
    (reads : ReadsQuiet rules .code word (lead ++ text)) :
    ∃ word', ReadsQuiet rules .code word' text := by
  induction lead generalizing word with
  | nil => exact ⟨word, reads⟩
  | cons c lead ih =>
    rw [all_cons, and_eq_true] at blank
    rw [cons_append] at reads
    have other := fun x => @beq_of_quiet c (isQuiet_of_whitespace blank.1) x
    have emit := reads.emit
    have next := reads.next
    cases @codeStep_emit rules word c (lead ++ text) (by rw [other '-' (by decide), Bool.false_and])
      (other '#' (by decide)) (by rw [other '/' (by decide), Bool.false_and]) with
    | inl quoted =>
      rw [Rules.step, quoted] at emit
      cases emit
    | inr kept =>
      rw [Rules.step, kept] at next
      exact ih blank.2 next

/-- A source of blanks and semicolons starts with no keyword. -/
theorem not_isSafeExplainSource {source : Str}
    (quiet : (stripSqlComments source).all isQuiet = true) :
    isSafeExplainSource tables source = false := by
  have start : tables.toLowercase (trimStart (stripSqlComments source)) = [] ∨
      ∃ rest, tables.toLowercase (trimStart (stripSqlComments source)) = ';' :: rest := by
    rw [all_eq_true] at quiet
    cases after : trimStart (stripSqlComments source) with
    | nil => exact .inl rfl
    | cons c rest =>
      have loud : isWhitespace c = false := of_dropWhile_cons after
      have member : c ∈ stripSqlComments source := by
        apply (dropWhile_sublist (p := isWhitespace)).subset
        rw [← trimStart, after]
        exact mem_cons_self
      have semicolon : c = ';' := by
        have := quiet c member
        rw [isQuiet, loud, Bool.false_or, beq_iff_eq] at this
        exact this
      right
      rw [semicolon, CaseTables.toLowercase, CaseTables.toLowercaseFrom,
        tables.lower_ascii [] ';' rest (by decide)]
      exact ⟨_, rfl⟩
  unfold isSafeExplainSource
  dsimp only
  obtain empty | ⟨rest, semicolon⟩ := start
  · rw [empty]
    decide
  · rw [semicolon]
    simp [isPrefixOf]

/-! ## The gate -/

/-- What a text that passes has in its source, where Oracle statements are not let through. -/
theorem of_isSafe {sql : Str} {databaseType : Option DatabaseType} (noOracle : databaseType ≠ some .oracle)
    (safe : isSafeExplainSqlForDatabase tables sql databaseType = true) :
    let source := stripTrailingSemicolons (trim sql)
    hasExtraStatementAfterSemicolon source = false ∧ isSafeExplainSource tables source = true ∧
      containsDangerousSqlKeyword tables source = false := by
  unfold isSafeExplainSqlForDatabase at safe
  dsimp only at safe ⊢
  split at safe
  · cases safe
  rename_i passes
  rw [or_eq_true, not_or, not_eq_true, not_eq_true] at passes
  rw [show (databaseType == some .oracle) = false by simpa using noOracle, Bool.false_and,
    if_neg (by decide), and_eq_true, not_eq_true'] at safe
  exact ⟨passes.2, safe⟩

theorem isPlainWord_of_dangerous : ∀ word ∈ dangerousWords, isPlainWord word.toList = true := by
  decide

/-- Some text of a safe source is no comment, blank or semicolon. -/
theorem not_readsQuiet {sql : Str}
    (starts : isSafeExplainSource tables (stripTrailingSemicolons (trim sql)) = true) :
    ¬ ReadsQuiet rules .code [] sql := by
  intro reads
  obtain ⟨lead, tail, same, blank, quiet⟩ := source_split sql
  rw [same] at reads
  obtain ⟨word, reads⟩ := reads.of_lead blank
  have comments := commentsOnly quiet .code (stripTrailingSemicolons (trim sql)) word reads
  rw [not_isSafeExplainSource comments] at starts
  cases starts

/-- Blank parts without the separators make up quiet pieces. -/
theorem quiet_of_parts {pieces : List Piece}
    (blank : ∀ part ∈ statementParts pieces, part.all isBlank = true) :
    pieces.all (·.any isQuiet) = true := by
  rw [all_eq_true]
  intro piece member
  by_cases semicolon : piece = some ';'
  · rw [semicolon]
    decide
  obtain ⟨part, inParts, inPart⟩ :=
    mem_splitOnP (p := (· == some ';')) |>.mpr ⟨member, by simpa using semicolon⟩
  have isB := all_eq_true.mp (blank part inParts) piece inPart
  cases piece with
  | none => cases isB
  | some c => exact isQuiet_of_whitespace isB

theorem isHarmless_of_safe (keeps : KeepsBoundaries tables rules) {sql : Str}
    {databaseType : Option DatabaseType} (noOracle : databaseType ≠ some .oracle)
    (unambiguous : isUnambiguous rules sql = true)
    (safe : isSafeExplainSqlForDatabase tables sql databaseType = true) :
    isHarmless rules sql = true := by
  simp only [isUnambiguous, and_eq_true, not_eq_true'] at unambiguous
  obtain ⟨⟨⟨agree, plain⟩, quoted⟩, noDigits⟩ := unambiguous
  obtain ⟨noExtra, starts, noWord⟩ := of_isSafe noOracle safe
  have quiet : quietAfter (shown (rules.lex sql)) = true := by
    apply quietAfter_of_covers (covers_strip agree)
    obtain ⟨lead, rest, split, blank, quietRest⟩ := strip_split
    rw [split, quietAfter_append_left blank]
    exact quietAfter_append_right (quietAfter_of_noExtra noExtra) quietRest
  have laterBlank : ∀ part ∈ (statementParts (rules.lex sql)).drop 1, part.all isBlank = true := by
    intro part later
    have kinds := parts_quiet quiet part later
    have alone := all_eq_true.mp quoted part later
    rw [or_eq_true, not_eq_true', any_eq_true] at alone
    rw [all_eq_true]
    intro piece inPart
    obtain noQuoted | loud := alone
    · refine (kinds piece inPart).resolve_left ?_
      rintro rfl
      rw [contains_eq_mem, decide_eq_false_iff_not] at noQuoted
      exact noQuoted inPart
    · obtain ⟨other, inPart', isLoud⟩ := loud
      rw [and_eq_true, not_eq_true'] at isLoud
      exfalso
      obtain isNone | isB := kinds other inPart'
      · rw [isNone] at isLoud; cases isLoud.1
      · rw [isB] at isLoud; cases isLoud.2
  rw [isHarmless, and_eq_true, not_eq_true', any_eq_false]
  constructor
  · -- The first part is the only one with a token, and it has one.
    cases parts : statementParts (rules.lex sql) with
    | nil => exact absurd parts (splitOnP_ne_nil _ _)
    | cons first later =>
      rw [parts, drop_one, tail_cons] at laterBlank
      have none : later.filter (fun part => !part.all isBlank) = [] := by
        rw [filter_eq_nil_iff]
        intro part member
        simp [laterBlank part member]
      have some : first.all isBlank = false := by
        apply Bool.eq_false_iff.mpr
        intro blank
        refine @not_readsQuiet tables rules sql starts ⟨agree, plain, quiet_of_parts ?_⟩
        intro part member
        rw [← Rules.lex, parts, mem_cons] at member
        obtain isFirst | isLater := member
        · rw [isFirst, blank]
        · exact laterBlank part isLater
      rw [filter_cons, some, none]
      rfl
  · intro word member found
    rw [contains_iff_mem] at found
    rw [containsDangerousSqlKeyword, any_eq_false] at noWord
    refine absurd (containsWord_source keeps (isPlainWord_of_dangerous word member) agree ?_ found)
      (noWord word member)
    intro numbers
    rw [numbers, Bool.true_and, any_eq_false] at noDigits
    simpa using noDigits word member

end Dbx.Guarantees.ExplainGate
