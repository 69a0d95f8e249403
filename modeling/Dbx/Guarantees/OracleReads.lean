import Dbx.Guarantees.StrippedText

/-!
# Statements proven to be Oracle reads

`isOracleProvenReadOnlyStatement` against the lexing of Oracle. A text that it accepts and
that is read by Oracle as by the stripper (`isUnambiguous`) is one SELECT statement without
any of the words and symbols it refuses (`proven_isSingleRead`).

The texts outside this condition are those in which Oracle reads a `#` inside a name, a
backtick, a literal with delimiters of its own, a second statement behind a semicolon, a word
right behind a number, or a first token that only begins like SELECT; the counterexample has
a hidden row lock for the first and the third, and a second statement.
-/
namespace Dbx.Guarantees.OracleReads

open Dbx.Source Dbx.Lib.Text Dbx.Lib.Lexing StrippedText List Bool

/-- Oracle's rules, with the letters of the database character set outside ASCII. -/
def oracleRules (letter : Char → Bool) : Rules where
  identChar c :=
    c.isAlphanum || c == '_' || c == '$' || c == '#' || !decide (c.val < 128) && letter c
  identChar_of_word c word := by
    rw [Bool.or_eq_true, Bool.or_eq_true, Bool.or_eq_true]
    exact .inl (.inl (.inl word))
  identChar_blank := rfl
  hashComments := false
  dashNeedsBlank := false
  nestedComments := false
  returnEndsLine := false
  executableComments := false
  backslashEscapes := false
  escapeStrings := false
  alternativeQuotes := true
  backticks := false
  brackets := false
  dollarQuotes := false
  numbersEndAtLetters := true

section

variable (rules : Rules)

/-- The first token, if it is a word. -/
def firstWord (pieces : List Piece) : Str :=
  shown ((pieces.dropWhile isBlank).takeWhile fun piece => piece.any rules.identChar)

/-- Nothing but blanks and semicolons behind the first semicolon. -/
def endsAtSemicolon : List Piece → Bool
  | [] => true
  | piece :: pieces =>
    if piece == some ';' then pieces.all fun later => isBlank later || later == some ';'
    else endsAtSemicolon pieces

/-- The text is one SELECT statement without the refused words and symbols. -/
def isSingleRead (sql : Str) : Bool :=
  let pieces := rules.lex sql
  (firstWord rules pieces).map Char.toLower == "select".toList &&
    !(oracleForbiddenWords.any fun word => (rules.words (shown pieces)).contains word.toList) &&
    !pieces.contains (some '(') && !pieces.contains (some '@') && endsAtSemicolon pieces

/-- Oracle reads the text as the stripper does, up to its last statement. -/
def isUnambiguous (sql : Str) : Bool :=
  let pieces := rules.lex sql
  agrees rules sql && (pieces.dropWhile isBlank).head? != some none &&
    (firstWord rules pieces).all Char.isAlphanum && endsAtSemicolon pieces &&
    !oracleForbiddenWords.any fun word =>
      behindDigits (stripSqlCommentsAndLiterals sql) word.toList

end

/-- Outside ASCII, only characters of words have an upper case with letters in it. -/
def KeepsUpperBoundaries (tables : CaseTables) (rules : Rules) : Prop :=
  ∀ c, ¬ c.val < 128 → rules.identChar c = false →
    tables.upper c ≠ [] ∧ ∀ d ∈ tables.upper c, d.isAlphanum = false

variable {tables : CaseTables} {rules : Rules}

/-! ## The first word -/

/-- Behind blanks that are code, the shown text begins with the first token. -/
theorem shown_dropWhile {pieces : List Piece}
    (unquoted : (pieces.dropWhile isBlank).head? ≠ some none) :
    shown (pieces.dropWhile isBlank) = trimStart (shown pieces) := by
  induction pieces with
  | nil => rfl
  | cons piece pieces ih =>
    cases piece with
    | none => exact absurd rfl unquoted
    | some c =>
      cases blank : isWhitespace c with
      | true =>
        have isB : isBlank (some c) = true := blank
        rw [dropWhile_cons_of_pos isB] at unquoted ⊢
        rw [ih unquoted]
        simp [shown, trimStart, blank]
      | false =>
        have isB : ¬ isBlank (some c) = true := by simp [isBlank, blank]
        rw [dropWhile_cons_of_neg isB]
        simp [shown, trimStart, blank]

theorem shown_takeWhile (pieces : List Piece) :
    shown (pieces.takeWhile fun piece => piece.any rules.identChar) =
      (shown pieces).takeWhile rules.identChar := by
  induction pieces with
  | nil => rfl
  | cons piece pieces ih =>
    cases piece with
    | none => simp [shown, rules.identChar_blank]
    | some c =>
      cases ident : rules.identChar c with
      | true => simpa [shown, ident] using ih
      | false => simp [shown, ident]

variable {c : Char}

theorem toUpper_of_not_alphanum (h : c.isAlphanum = false) : c.toUpper = c := by
  have notLower : c.isLower = false := by
    simp only [Char.isAlphanum, isAlpha_eq, or_eq_false_iff] at h
    exact h.1.2
  have range : ¬ ('a'.val ≤ c.val ∧ c.val ≤ 'z'.val) := by
    rw [← isLower_eq_true, notLower]
    exact Bool.false_ne_true
  delta Char.toUpper
  rw [dif_neg range]

theorem upper_of_boundary (keeps : KeepsUpperBoundaries tables rules)
    (outside : rules.identChar c = false) :
    tables.upper c ≠ [] ∧ ∀ d ∈ tables.upper c, d.isAlphanum = false := by
  by_cases ascii : c.val < 128
  · have noWord : c.isAlphanum = false := by
      apply Bool.eq_false_iff.mpr
      intro word
      rw [rules.identChar_of_word c (by rw [word, Bool.true_or])] at outside
      cases outside
    rw [tables.upper_ascii c ascii, toUpper_of_not_alphanum noWord]
    simp [noWord]
  · exact keeps c ascii outside

/-- A keyword at the front of a word and what follows it, with a boundary behind the keyword
and one behind the word, is the word. -/
theorem eq_of_startsWithKeyword {keyword word rest : Str} (letters : keyword.all Char.isAlphanum = true)
    (alphanum : word.all Char.isAlphanum = true) (stop : rest.head?.any Char.isAlphanum = false)
    (starts : startsWithKeyword (word ++ rest) keyword = true) : word = keyword := by
  rw [startsWithKeyword, and_eq_true, not_eq_true', isPrefixOf_iff_prefix] at starts
  obtain ⟨front, ends⟩ := starts
  induction keyword generalizing word with
  | nil =>
    cases word with
    | nil => rfl
    | cons c word =>
      rw [all_cons, and_eq_true] at alphanum
      simp [alphanum.1] at ends
  | cons k keyword ih =>
    rw [all_cons, and_eq_true] at letters
    cases word with
    | nil =>
      obtain ⟨more, rfl⟩ := front
      simp [letters.1] at stop
    | cons c word =>
      rw [all_cons, and_eq_true] at alphanum
      rw [cons_append, cons_prefix_cons] at front
      rw [front.1, ih letters.2 alphanum.2 front.2 (by simpa using ends)]

theorem toUpper_isAlphanum (h : c.isAlphanum = true) : c.toUpper.isAlphanum = true := by
  exact @forall_char_lt 128 (fun c => c.isAlphanum = true → c.toUpper.isAlphanum = true)
    (by decide) c (isAlphanum_lt h) h

theorem toUppercase_word {word : Str}
    (alphanum : word.all Char.isAlphanum = true) :
    tables.toUppercase word = word.map Char.toUpper := by
  induction word with
  | nil => rfl
  | cons c word ih =>
    rw [all_cons, and_eq_true] at alphanum
    have tail := ih alphanum.2
    unfold CaseTables.toUppercase at tail ⊢
    rw [flatMap_cons, tables.upper_ascii c (UInt32.lt_iff_toNat_lt.mpr (isAlphanum_lt alphanum.1)), tail]
    rfl

/-- If the text starts with the keyword in upper case, its first word is the keyword. -/
theorem takeWhile_of_startsWithKeyword (keeps : KeepsUpperBoundaries tables rules) {text : Str}
    (alphanum : (text.takeWhile rules.identChar).all Char.isAlphanum = true) {keyword : Str}
    (letters : keyword.all Char.isAlphanum = true)
    (starts : startsWithKeyword (tables.toUppercase text) keyword = true) :
    (text.takeWhile rules.identChar).map Char.toUpper = keyword := by
  have split := takeWhile_append_dropWhile (p := rules.identChar) (l := text)
  have upper : tables.toUppercase text = (text.takeWhile rules.identChar).map Char.toUpper ++
      tables.toUppercase (text.dropWhile rules.identChar) := by
    rw [← toUppercase_word alphanum, CaseTables.toUppercase, CaseTables.toUppercase,
      CaseTables.toUppercase, ← flatMap_append, split]
  rw [upper] at starts
  refine eq_of_startsWithKeyword letters ?_ ?_ starts
  · rw [all_map, all_eq_true]
    intro c member
    exact toUpper_isAlphanum (all_eq_true.mp alphanum c member)
  cases after : text.dropWhile rules.identChar with
  | nil => rfl
  | cons c rest =>
    have outside := of_dropWhile_cons after
    obtain ⟨nonempty, quiet⟩ := upper_of_boundary keeps outside
    rw [CaseTables.toUppercase, flatMap_cons, head?_append,
      head?_eq_some_head nonempty]
    exact quiet _ (head_mem nonempty)

theorem mem_toLowercaseFrom (ascii : c.val < 128) {text : Str}
    (member : c ∈ text) (before : Str) : c.toLower ∈ tables.toLowercaseFrom before text := by
  induction text generalizing before with
  | nil => cases member
  | cons d text ih =>
    rw [CaseTables.toLowercaseFrom, mem_append]
    obtain here | later := mem_cons.mp member
    · left
      rw [← here, tables.lower_ascii before c _ ascii]
      exact mem_cons_self
    · exact .inr (ih later _)

/-! ## Accepted texts -/

/-- What an accepted text has passed. -/
theorem of_proven {sql : Str} (proven : isOracleProvenReadOnlyStatement tables sql = true) :
    let cleaned := stripSqlCommentsAndLiterals sql
    let lower := tables.toLowercase cleaned
    startsWithKeyword (tables.toUppercase (trimStart cleaned)) "SELECT".toList = true ∧
      '(' ∉ lower ∧ '@' ∉ lower ∧
      ∀ word ∈ oracleForbiddenWords, containsWord lower word.toList = false := by
  simp only [isOracleProvenReadOnlyStatement] at proven
  split at proven
  · cases proven
  split at proven
  · cases proven
  split at proven
  · cases proven
  split at proven
  · cases proven
  rename_i _ starts paren link
  rw [not_eq_true', any_eq_false] at proven
  refine ⟨by simpa using starts, by simpa using paren, by simpa using link, ?_⟩
  intro word member
  simpa using proven word member

theorem isPlainWord_of_forbidden :
    ∀ word ∈ oracleForbiddenWords, isPlainWord word.toList = true := by
  decide

theorem keepsUpperBoundaries_ascii : KeepsUpperBoundaries .ascii rules := by
  intro c _ outside
  have noWord : c.isAlphanum = false := by
    apply Bool.eq_false_iff.mpr
    intro word
    rw [rules.identChar_of_word c (by rw [word, Bool.true_or])] at outside
    cases outside
  simp [CaseTables.ascii, toUpper_of_not_alphanum noWord, noWord]

end Dbx.Guarantees.OracleReads
