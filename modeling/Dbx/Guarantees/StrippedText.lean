import Dbx.Lib.Lexing
import Dbx.Source.QueryExecutionSql

/-!
# The stripper against the lexing of a dialect

`stripSqlCommentsAndLiterals` has one set of rules for every database. `agreesFrom` follows
the lexing of a text by the rules of a dialect and asks at each character that the stripper
goes the same way. Where it does, the stripped text shows at least the code of the dialect
(`covers_strip`), and a word of the code is found by `containsWord` in the stripped text
(`containsWord_of_hasWord`).

Brackets and dollar-quoted literals are no quotes for the stripper. They are covered as long
as nothing in them starts a quote or a comment for it: it then shows their content as well.
-/
namespace Dbx.Guarantees.StrippedText

open Dbx.Source Dbx.Lib.Text Dbx.Lib.Lexing List Bool

/-- The character starts a quote or a comment for the stripper. -/
def startsStripped (ch : Char) (next : Option Char) : Bool :=
  ch == '\'' || ch == '"' || ch == '\x60' || ch == '#' || ch == '-' && next == some '-' ||
    ch == '/' && next == some '*'

section

variable (rules : Rules)

/-- The stripper and the lexer part at this character. -/
def parts (mode : Mode) (word : Str) (ch : Char) (rest : Str) : Bool :=
  match mode with
  | .code =>
    ch == '-' && rest.head? == some '-' && !rules.opensComment rest.tail.head? ||
      ch == '#' && !rules.hashComments ||
      ch == '/' && rest.head? == some '*' && rules.isExecutable rest ||
      ch == '\'' && rules.isQuoteLetter word || ch == '\x60' && !rules.backticks
  | .line => rules.returnEndsLine && ch == '\r' && rest.head? != some '\n'
  | .block depth =>
    depth != 0 || rules.nestedComments && ch == '/' && rest.head? == some '*'
  | .quoted _ _ => false
  | .escaped quote => ch == quote.char
  | .bracket _ | .dollar _ _ _ => startsStripped ch rest.head?
  | .alternativeOpen | .alternative _ => true
  | .silent _ => false

def agreesFrom (mode : Mode) (word : Str) : Str → Bool
  | [] => true
  | ch :: rest =>
    let step := rules.step mode word ch rest
    !parts rules mode word ch rest &&
      agreesFrom step.next (rules.nextWord word step.emit) rest

/-- The stripper reads the text by the rules of the dialect. -/
def agrees (text : Str) : Bool := agreesFrom rules .code [] text

end

/-! ## Simulation -/

/-- The mode of the stripper when the lexer is in a mode. -/
def stripMode : Mode → StripMode
  | .line => .lineComment
  | .block _ => .blockComment
  | .quoted .single _ | .escaped .single => .singleQuote
  | .quoted .double _ | .escaped .double => .doubleQuote
  | .quoted .back _ | .escaped .back => .backtick
  | .silent next => .skip (stripMode next)
  | .code | .bracket _ | .dollar _ _ _ | .alternativeOpen | .alternative _ => .code

/-- The stripper shows text that is quoted for the lexer. -/
def showsMore : Mode → Bool
  | .bracket _ | .dollar _ _ _ => true
  | .silent next => showsMore next
  | _ => false

def separates (c : Char) : Bool := decide (c.val < 128) && !isIdentifierByte (some c)

/-- What one step of both has to give: the shown characters of the step, and the modes. -/
inductive StepCovers : Bool → List Piece → Str → Bool → Prop where
  | none (inside : Bool) : StepCovers inside [] [] inside
  | same (piece : Piece) : StepCovers false [piece] [piece.getD ' '] false
  | opens {c : Char} (fence : separates c = true) : StepCovers false [.none] [c] true
  | inside (c : Char) : StepCovers true [.none] [c] true
  | closes {c : Char} (fence : separates c = true) : StepCovers true [.none] [c] false

theorem StepCovers.append {before after : Bool} {emit rest : List Piece} {emitted stripped : Str}
    (step : StepCovers before emit emitted after)
    (covers : Covers separates after (shown rest) stripped) :
    Covers separates before (shown (emit ++ rest)) (emitted ++ stripped) := by
  cases step with
  | none => exact covers
  | same piece => exact .same _ covers
  | opens fence => exact .opens fence covers
  | inside c => exact .inside c covers
  | closes fence => exact .closes fence covers

variable {ch : Char} {word text : Str} {mode : Mode} {tables : CaseTables}

/-- A character that starts nothing is kept by the stripper. -/
theorem stripCodeStep_of_not_starts {next : Option Char} (h : startsStripped ch next = false) :
    stripCodeStep ch next = ⟨[ch], .code⟩ := by
  simp only [startsStripped, or_eq_false_iff] at h
  simp [stripCodeStep, h]

theorem stripQuoteStep_eq (quote : Quote) (escapes : Bool) (ch : Char) (next : Option Char) :
    stripStep (stripMode (.quoted quote escapes)) ch next =
      stripQuoteStep quote.char ch next (stripMode (.quoted quote escapes)) := by
  cases quote <;> rfl

variable {rules : Rules}

variable {rest : Str}

theorem codeStep_covers (same : parts rules .code word ch rest = false) :
    StepCovers false (rules.codeStep word ch rest).emit (stripCodeStep ch rest.head?).emit
        (showsMore (rules.codeStep word ch rest).next) ∧
      stripMode (rules.codeStep word ch rest).next = (stripCodeStep ch rest.head?).next := by
  simp only [parts, or_eq_false_iff] at same
  obtain ⟨⟨⟨⟨dash, hash⟩, slash⟩, quote⟩, back⟩ := same
  unfold Rules.codeStep stripCodeStep
  by_cases isDash : (ch == '-' && rest.head? == some '-') = true
  · rw [isDash, Bool.true_and, not_eq_false'] at dash
    simp only [isDash, dash, Bool.true_and, if_true]
    exact ⟨.none _, rfl⟩
  by_cases isHash : (ch == '#') = true
  · rw [isHash, Bool.true_and, not_eq_false'] at hash
    simp only [isDash, isHash, hash, Bool.false_and, Bool.true_and, if_true, if_false,
      false_eq_true]
    exact ⟨.none _, rfl⟩
  by_cases isSlash : (ch == '/' && rest.head? == some '*') = true
  · rw [isSlash, Bool.true_and] at slash
    simp only [isDash, isHash, isSlash, slash, Bool.false_and, Bool.not_false, Bool.true_and,
      if_true, if_false, false_eq_true]
    exact ⟨.none _, rfl⟩
  simp only [isDash, isHash, isSlash, Bool.false_and, if_false, false_eq_true]
  by_cases isQuote : (ch == '\'') = true
  · rw [isQuote, Bool.true_and] at quote
    simp only [isQuote, quote, if_true, if_false, false_eq_true]
    exact ⟨.same none, rfl⟩
  by_cases isDouble : (ch == '"') = true
  · simp only [isQuote, isDouble, if_true, if_false, false_eq_true]
    exact ⟨.same none, rfl⟩
  by_cases isBack : (ch == '\x60') = true
  · rw [isBack, Bool.true_and, not_eq_false'] at back
    simp only [isQuote, isDouble, isBack, back, Bool.true_and, if_true, if_false,
      false_eq_true]
    exact ⟨.same none, rfl⟩
  -- The stripper keeps the character.
  simp only [isQuote, isDouble, isBack, Bool.false_and, if_false, false_eq_true]
  split
  · rename_i opens
    rw [and_eq_true, beq_iff_eq] at opens
    rw [opens.1]
    exact ⟨.opens rfl, rfl⟩
  · split
    · rename_i opens
      rw [and_eq_true, and_eq_true, beq_iff_eq] at opens
      rw [opens.1.1]
      split
      · exact ⟨.opens rfl, rfl⟩
      · exact ⟨.same (some '$'), rfl⟩
    · exact ⟨.same (some ch), rfl⟩

theorem quotedStep_covers {quote : Quote} {escapes : Bool} : let step := rules.step (.quoted quote escapes) word ch rest
    let strip := stripStep (stripMode (.quoted quote escapes)) ch rest.head?
    StepCovers false step.emit strip.emit (showsMore step.next) ∧ stripMode step.next = strip.next := by
  rw [stripQuoteStep_eq]
  unfold Rules.step stripQuoteStep
  dsimp only
  split
  · split
    · exact ⟨.same none, rfl⟩
    · exact ⟨.same none, rfl⟩
  split
  · refine ⟨.same none, ?_⟩
    cases quote <;> rfl
  · exact ⟨.same none, rfl⟩

theorem hiddenStep_covers {next : Option Char} (quiet : startsStripped ch next = false)
    (closed : mode = .code → separates ch = true) (stays : stripMode mode = .code)
    (more : mode ≠ .code → showsMore mode = true) :
    StepCovers true [none] (stripCodeStep ch next).emit (showsMore mode) ∧
      stripMode mode = (stripCodeStep ch next).next := by
  rw [stripCodeStep_of_not_starts quiet]
  refine ⟨?_, stays⟩
  by_cases isCode : mode = .code
  · subst isCode
    exact .closes (closed rfl)
  · rw [more isCode]
    exact .inside ch

/-- Where they do not part, one step of the lexer and one of the stripper show the same, up
to text that only the stripper shows. -/
theorem step_covers (same : parts rules mode word ch rest = false) : let step := rules.step mode word ch rest
    let strip := stripStep (stripMode mode) ch rest.head?
    StepCovers (showsMore mode) step.emit strip.emit (showsMore step.next) ∧
      stripMode step.next = strip.next := by
  cases mode with
  | code => exact codeStep_covers same
  | line =>
    rw [parts] at same
    simp only [Rules.step, stripMode, stripStep, same, Bool.or_false]
    split
    · exact ⟨.same (some ' '), rfl⟩
    · exact ⟨.none _, rfl⟩
  | block depth =>
    rw [parts, or_eq_false_iff, bne_eq_false_iff_eq] at same
    obtain ⟨rfl, flat⟩ := same
    simp only [Rules.step, stripMode, stripStep, flat, false_eq_true, if_false]
    split
    · exact ⟨.same (some ' '), rfl⟩
    · exact ⟨.none _, rfl⟩
  | quoted quote escapes => exact quotedStep_covers
  | escaped quote =>
    rw [parts] at same
    have strip : stripStep (stripMode (.escaped quote)) ch rest.head? =
        ⟨[' '], stripMode (.quoted quote true)⟩ := by
      cases quote with
      | single | double | back =>
        rw [Quote.char] at same
        simp [stripMode, stripStep, stripQuoteStep, same]
    rw [strip]
    exact ⟨.same none, rfl⟩
  | bracket doubled =>
    cases doubled with
    | true => exact hiddenStep_covers same nofun rfl (fun _ => rfl)
    | false =>
      by_cases isClosing : (ch == ']') = true
      · have separator : separates ch = true := by
          rw [beq_iff_eq.mp isClosing]
          rfl
        simp only [Rules.step, isClosing, if_true]
        split
        · exact hiddenStep_covers same nofun rfl (fun _ => rfl)
        · exact hiddenStep_covers same (fun _ => separator) rfl (fun h => absurd rfl h)
      · simp only [Rules.step, isClosing, false_eq_true, if_false]
        exact hiddenStep_covers same nofun rfl (fun _ => rfl)
  | dollar tag opening seen =>
    cases opening with
    | succ opening => exact hiddenStep_covers same nofun rfl (fun _ => rfl)
    | zero =>
      simp only [Rules.step]
      split
      · rename_i closing
        rw [and_eq_true, beq_iff_eq] at closing
        refine hiddenStep_covers same (fun _ => ?_) rfl (fun h => absurd rfl h)
        rw [closing.1]
        rfl
      · exact hiddenStep_covers same nofun rfl (fun _ => rfl)
  | alternativeOpen | alternative => cases same
  | silent next => exact ⟨.none _, rfl⟩

theorem covers_stripFrom (agree : agreesFrom rules mode word text = true) :
    Covers separates (showsMore mode) (shown (rules.lexFrom mode word text))
      (stripFrom (stripMode mode) text) := by
  induction text generalizing mode word with
  | nil => exact .nil _
  | cons ch rest ih =>
    rw [agreesFrom, and_eq_true, not_eq_true'] at agree
    obtain ⟨step, next⟩ := step_covers agree.1
    rw [Rules.lexFrom, stripFrom, ← next]
    exact step.append (ih agree.2)

/-- The stripped text shows the code of the text. -/
theorem covers_strip (agree : agrees rules text = true) :
    Covers separates false (shown (rules.lex text)) (stripSqlCommentsAndLiterals text) :=
  covers_stripFrom agree

section

variable (noBrackets : rules.brackets = false) (noDollars : rules.dollarQuotes = false)
include noBrackets noDollars

/-- Without brackets and dollar-quoted literals there is nothing more to show. -/
theorem showsMore_step (less : showsMore mode = false) (word : Str) (ch : Char) (rest : Str) :
    showsMore (rules.step mode word ch rest).next = false := by
  cases mode with
  | code =>
    simp only [Rules.step, Rules.codeStep, noBrackets, noDollars, Bool.and_false, Bool.false_and,
      false_eq_true, if_false]
    repeat' split
    all_goals rfl
  | bracket | dollar => cases less
  | silent next => exact less
  | line | block | quoted | escaped | alternativeOpen | alternative =>
    simp only [Rules.step]
    repeat' split
    all_goals rfl

theorem shown_lexFrom (less : showsMore mode = false)
    (agree : agreesFrom rules mode word text = true) :
    shown (rules.lexFrom mode word text) = stripFrom (stripMode mode) text := by
  induction text generalizing mode word with
  | nil => rfl
  | cons ch rest ih =>
    rw [agreesFrom, and_eq_true, not_eq_true'] at agree
    obtain ⟨step, next⟩ := step_covers agree.1
    have still := showsMore_step noBrackets noDollars less word ch rest
    rw [Rules.lexFrom, stripFrom, ← next]
    rw [shown_append, ih still agree.2]
    rw [less, still] at step
    generalize (rules.step mode word ch rest).emit = emit at step
    generalize (stripStep (stripMode mode) ch rest.head?).emit = emitted at step
    cases step <;> rfl

/-- Without brackets and dollar-quoted literals the stripped text is the code. -/
theorem shown_lex (agree : agrees rules text = true) :
    shown (rules.lex text) = stripSqlCommentsAndLiterals text :=
  shown_lexFrom noBrackets noDollars rfl agree

end

/-! ## Words -/

variable {front back : Str} {c : Char}

theorem containsWordFrom_of_eq (nonempty : word ≠ []) (before : Option Char)
    (left : isIdentifierByte (front.getLast?.or before) = false)
    (right : isIdentifierByte back.head? = false) :
    containsWordFrom word before (front ++ (word ++ back)) = true := by
  induction front generalizing before with
  | nil =>
    cases word with
    | nil => exact absurd rfl nonempty
    | cons c word =>
      have here : isIdentifierByte before = false := by simpa using left
      simp [containsWordFrom, here, right]
  | cons c front ih =>
    have next : isIdentifierByte (front.getLast?.or (some c)) = false := by
      cases front with
      | nil => simpa using left
      | cons d front => simpa [getLast?_cons] using left
    rw [cons_append, containsWordFrom, ih (some c) next, Bool.or_true]

theorem toLowercaseFrom_append (before front back : Str) :
    ∃ lowered, tables.toLowercaseFrom before (front ++ back) =
      lowered ++ tables.toLowercaseFrom (before ++ front) back := by
  induction front generalizing before with
  | nil => exact ⟨[], by simp⟩
  | cons c front ih =>
    obtain ⟨lowered, same⟩ := ih (before ++ [c])
    refine ⟨tables.lower before c (front ++ back) ++ lowered, ?_⟩
    rw [cons_append, CaseTables.toLowercaseFrom, same]
    simp

/-- ASCII text has its own lower case wherever it stands. -/
theorem toLowercaseFrom_ascii {found : Str} (ascii : ∀ c ∈ found, c.val < 128)
    (before after : Str) :
    tables.toLowercaseFrom before (found ++ after) =
      found.map Char.toLower ++ tables.toLowercaseFrom (before ++ found) after := by
  induction found generalizing before with
  | nil => simp
  | cons c found ih =>
    rw [cons_append, CaseTables.toLowercaseFrom,
      tables.lower_ascii before c _ (ascii c mem_cons_self),
      ih (forall_mem_cons.mp ascii).2]
    simp

/-- Outside ASCII, only characters of words have a lower case with word bytes in it. -/
def KeepsBoundaries (tables : CaseTables) (rules : Rules) : Prop :=
  ∀ before c after, ¬ c.val < 128 → rules.identChar c = false →
    tables.lower before c after ≠ [] ∧
      ∀ d ∈ tables.lower before c after, isIdentifierByte (some d) = false

/-- The characters next to a word of the dialect in a stripped text. -/
def bounds (rules : Rules) (c : Char) : Bool := !rules.identChar c || separates c

theorem not_identifierByte_of_bounds (h : bounds rules c = true) :
    isIdentifierByte (some c) = false := by
  rw [bounds, or_eq_true] at h
  obtain noIdent | separator := h
  · rw [not_eq_true'] at noIdent
    apply Bool.eq_false_iff.mpr
    intro word
    rw [rules.identChar_of_word c (by simpa [isIdentifierByte] using word)] at noIdent
    cases noIdent
  · rw [separates, and_eq_true, not_eq_true'] at separator
    exact separator.2

theorem toLower_of_not_word (h : isIdentifierByte (some c) = false) : c.toLower = c := by
  have notUpper : c.isUpper = false := by
    simp only [isIdentifierByte, Option.any_some, or_eq_false_iff, Char.isAlphanum,
      isAlpha_eq] at h
    exact h.1.1.1
  rw [← not_eq_true, isUpper_eq_true] at notUpper
  exact dif_neg notUpper

theorem keepsBoundaries_ascii : KeepsBoundaries .ascii rules := by
  intro before c after _ outside
  have noByte : isIdentifierByte (some c) = false := by
    apply @not_identifierByte_of_bounds rules
    rw [bounds, outside]
    rfl
  simp [CaseTables.ascii, toLower_of_not_word noByte, noByte]

theorem lower_of_bounds (keeps : KeepsBoundaries tables rules) (h : bounds rules c = true)
    {before after : Str} :
    tables.lower before c after ≠ [] ∧
      ∀ d ∈ tables.lower before c after, isIdentifierByte (some d) = false := by
  have noByte := not_identifierByte_of_bounds h
  by_cases ascii : c.val < 128
  · rw [tables.lower_ascii before c after ascii, toLower_of_not_word noByte]
    simp [noByte]
  rw [bounds, separates, or_eq_true] at h
  obtain noIdent | separator := h
  · exact keeps before c after ascii (by simpa using noIdent)
  · simp [ascii] at separator

/-- What stands before a boundary ends with no word byte in lower case. -/
theorem getLast?_toLowercase (keeps : KeepsBoundaries tables rules)
    (left : front.getLast?.all (bounds rules) = true) :
    ∃ lowered, tables.toLowercase (front ++ back) =
        lowered ++ tables.toLowercaseFrom front back ∧
      isIdentifierByte lowered.getLast? = false := by
  induction front using List.reverseRecOn with
  | nil => exact ⟨[], rfl, rfl⟩
  | append_singleton front c _ =>
    have bound : bounds rules c = true := by simpa using left
    obtain ⟨nonempty, quiet⟩ := lower_of_bounds keeps bound
    obtain ⟨lowered, same⟩ := toLowercaseFrom_append [] front (c :: back)
    refine ⟨lowered ++ tables.lower front c back, ?_, ?_⟩
    · rw [CaseTables.toLowercase, append_assoc, singleton_append, same,
        CaseTables.toLowercaseFrom]
      simp
    · rw [getLast?_append, getLast?_eq_some_getLast nonempty]
      exact quiet _ (getLast_mem nonempty)

theorem head?_toLowercaseFrom (keeps : KeepsBoundaries tables rules)
    (right : back.head?.all (bounds rules) = true) {before : Str} :
    isIdentifierByte (tables.toLowercaseFrom before back).head? = false := by
  cases back with
  | nil => rfl
  | cons c back =>
    have bound : bounds rules c = true := by simpa using right
    obtain ⟨nonempty, quiet⟩ := lower_of_bounds keeps bound
    rw [CaseTables.toLowercaseFrom, head?_append, head?_eq_some_head nonempty]
    exact quiet _ (head_mem nonempty)

def isWordByte (c : Char) : Bool := c.isAlphanum || c == '_'

/-- The word stands right behind the digits of a number. -/
def behindDigits (text word : Str) : Bool :=
  (wordsBy isWordByte text).any fun run =>
    run.head?.any Char.isDigit && (run.dropWhile Char.isDigit).map Char.toLower == word

/-- Small letters only. -/
def isPlainWord (word : Str) : Bool := !word.isEmpty && word.all Char.isLower

theorem of_toLower_isLower (h : c.toLower.isLower = true) :
    c.val < 128 ∧ isWordByte c = true ∧ c.isDigit = false := by
  have letter : c.isAlpha = true ∧ c.val.toNat < 128 ∧ 65 ≤ c.val.toNat := by
    unfold Char.toLower at h
    split at h
    · rename_i upper
      have bounds : 65 ≤ c.val.toNat ∧ c.val.toNat ≤ 90 := by
        simpa [UInt32.le_iff_toNat_le] using upper
      refine ⟨?_, by omega, bounds.1⟩
      simpa [isAlpha_eq, isUpper_eq_true] using .inl upper
    · have bounds : 97 ≤ c.val.toNat ∧ c.val.toNat ≤ 122 := by
        simpa [isLower_eq_true, UInt32.le_iff_toNat_le] using h
      refine ⟨?_, by omega, by omega⟩
      rw [isAlpha_eq, h, Bool.or_true]
  obtain ⟨alpha, small, large⟩ := letter
  refine ⟨by simpa [UInt32.lt_iff_toNat_lt] using small, ?_, ?_⟩
  · simp [isWordByte, Char.isAlphanum, alpha]
  simp only [Char.isDigit, and_eq_false_iff, decide_eq_false_iff_not, ge_iff_le,
    UInt32.le_iff_toNat_le]
  right
  have nine : '9'.val.toNat = 57 := rfl
  omega

/-- Digits with a word behind them are word bytes. -/
theorem isWordByte_of_lettersOf {run : Str}
    (plain : isPlainWord ((run.dropWhile Char.isDigit).map Char.toLower) = true) :
    run.all isWordByte = true := by
  rw [isPlainWord, and_eq_true, all_eq_true] at plain
  rw [all_eq_true]
  intro c member
  rw [← takeWhile_append_dropWhile (p := Char.isDigit) (l := run), mem_append] at member
  obtain digits | letters := member
  · have digit := mem_takeWhile_imp digits
    simp [isWordByte, Char.isAlphanum, digit]
  · exact (of_toLower_isLower (plain.2 _ (mem_map_of_mem letters))).2.1

theorem not_wordByte_of_bounds {c : Option Char} (h : c.all (bounds rules) = true) :
    c.any isWordByte = false := by
  cases c with
  | none => rfl
  | some c => exact not_identifierByte_of_bounds (by simpa using h)

theorem containsWord_of_bounded (keeps : KeepsBoundaries tables rules) {found : Str}
    (plain : isPlainWord (found.map Char.toLower) = true)
    (left : front.getLast?.all (bounds rules) = true) (right : back.head?.all (bounds rules) = true) :
    containsWord (tables.toLowercase (front ++ (found ++ back))) (found.map Char.toLower) =
      true := by
  rw [isPlainWord, and_eq_true, not_eq_true', all_eq_true] at plain
  have ascii : ∀ c ∈ found, c.val < 128 := by
    intro c member
    exact (of_toLower_isLower (plain.2 _ (mem_map_of_mem member))).1
  obtain ⟨lowered, same, last⟩ := getLast?_toLowercase keeps left
  rw [containsWord, plain.1, Bool.not_false, Bool.true_and, same, toLowercaseFrom_ascii ascii]
  apply containsWordFrom_of_eq
  · simpa using plain.1
  · simpa using last
  · exact head?_toLowercaseFrom keeps right

/-- A word of the code stands between boundaries in what a covering text shows, unless it
stands behind the digits of a number. -/
theorem exists_bounded_of_mem_words {inside : Bool} {less more : Str}
    (plain : isPlainWord word = true) (covers : Covers separates inside less more)
    (noDigits : rules.numbersEndAtLetters = true → behindDigits more word = false)
    (member : word ∈ rules.words less) :
    ∃ front found back, more = front ++ (found ++ back) ∧ found.map Char.toLower = word ∧
      front.getLast?.all (bounds rules) = true ∧ back.head?.all (bounds rules) = true := by
  obtain ⟨run, inRuns, rfl⟩ := mem_map.mp member
  obtain ⟨front, back, rfl, nonempty, all, left, right⟩ := exists_of_mem_wordsBy inRuns
  have noBlank : ' ' ∉ run := by
    intro blank
    have := all_eq_true.mp all ' ' blank
    rw [rules.identChar_blank] at this
    cases this
  have outside : ∀ c : Option Char, c.any rules.identChar = false → c.all (bounds rules) = true := by
    intro c none
    cases c with
    | none => rfl
    | some c => simp [bounds, show rules.identChar c = false by simpa using none]
  obtain ⟨front', back', rfl, -, left', right'⟩ :=
    covers.exists_word (bounds rules) (fun c fence => by simp [bounds, fence]) nonempty noBlank
      (outside _ left) (outside _ right)
  cases numbers : rules.numbersEndAtLetters with
  | false => exact ⟨front', run, back', rfl, by simp [Rules.lettersOf, numbers], left', right'⟩
  | true =>
    have letters : rules.lettersOf run = (run.dropWhile Char.isDigit).map Char.toLower := by
      simp [Rules.lettersOf, numbers]
    cases run with
    | nil => exact absurd rfl nonempty
    | cons c run =>
      by_cases digit : c.isDigit = true
      · -- The word stands behind digits, which the covering text shows as well.
        have found : behindDigits (front' ++ (c :: run ++ back')) (rules.lettersOf (c :: run)) =
            true := by
          rw [behindDigits, any_eq_true]
          refine ⟨c :: run, mem_wordsBy nonempty ?_ ?_ ?_, ?_⟩
          · exact isWordByte_of_lettersOf (by rw [← letters]; exact plain)
          · exact not_wordByte_of_bounds left'
          · exact not_wordByte_of_bounds right'
          · rw [letters]
            simp [digit]
        rw [noDigits numbers] at found
        cases found
      · refine ⟨front', c :: run, back', rfl, ?_, left', right'⟩
        rw [letters, dropWhile_cons_of_neg digit]

/-- A word of the code is found in what a covering text shows, unless it stands behind the
digits of a number. -/
theorem containsWord_of_mem_words (keeps : KeepsBoundaries tables rules) {inside : Bool}
    {less more : Str} (plain : isPlainWord word = true) (covers : Covers separates inside less more)
    (noDigits : rules.numbersEndAtLetters = true → behindDigits more word = false)
    (member : word ∈ rules.words less) :
    containsWord (tables.toLowercase more) word = true := by
  obtain ⟨front, found, back, rfl, rfl, left, right⟩ :=
    exists_bounded_of_mem_words plain covers noDigits member
  exact containsWord_of_bounded keeps plain left right

end Dbx.Guarantees.StrippedText
