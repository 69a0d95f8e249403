import Dbx.Guarantees.TableEntries

/-!
# How the rewriter reads a column

The parts of a column definition as `sqlite_rebuild.rs` finds them: the types it accepts
(`accepted_type`), the blanks around an entry (`dropWhile_textOf`), the name
(`parseIdentifier_name`), and the keyword at which the type ends (`find_lexemes`,
`find_keyword`).
-/
namespace Dbx.Guarantees.ColumnReading

open Dbx.Lib.Text Dbx.Lib.Lexemes Dbx.Source.SqliteRewrite Dbx.Guarantees.ScannedLexemes List
open Bool (and_eq_true or_eq_true)
open Dbx.Guarantees.TableEntries

/-! ## Accepted types -/

/-- No quote, comment or bracket starts with the character. -/
def isTame (c : Char) : Bool := !isOpening c || isAsciiWhitespace c

/-- The depth behind the characters, as `flat` has it of lexemes. -/
def charFlat (depth : Nat) : Str → Option Nat
  | [] => some depth
  | c :: t =>
    if c = '(' then charFlat (depth + 1) t
    else if c = ')' then if depth = 0 then none else charFlat (depth - 1) t
    else if c = ',' ∧ depth = 0 then none
    else charFlat depth t

variable {t w : Str} {c q : Char} {x : Lexeme} {o : Option Char} {ls : List Lexeme}

theorem charFlat_skip (neutral : ∀ c ∈ t, c ≠ '(' ∧ c ≠ ')' ∧ c ≠ ',') (rest : Str) (d : Nat) :
    charFlat d (t ++ rest) = charFlat d rest := by
  induction t with
  | nil => rfl
  | cons c t ih =>
    obtain ⟨noOpen, noClose, noComma⟩ := neutral c mem_cons_self
    rw [cons_append, charFlat, if_neg noOpen, if_neg noClose,
      if_neg fun separates => noComma separates.1,
      ih (forall_mem_cons.mp neutral).2]

theorem neutral_of_isIdChar (idChar : isIdChar c = true) : c ≠ '(' ∧ c ≠ ')' ∧ c ≠ ',' := by
  refine ⟨?_, ?_, ?_⟩ <;>
  · rintro rfl
    exact absurd idChar (by decide)

theorem isTame_of_isQuote (quote : isQuote q = true) : isTame q = false := by
  obtain (rfl | rfl) | rfl := quote_cases quote <;> decide

section

variable (shape : Shape x o) (tame : x.text.all isTame = true)
include shape tame

/-- Tame characters make blanks, words and symbols. -/
theorem tame_cases : (∃ c, x = .space c ∧ isAsciiWhitespace c = true) ∨
      (∃ w, x = .word w ∧ w ≠ [] ∧ w.all isIdChar = true) ∨
      ∃ c, x = .symbol c ∧ isIdChar c = false ∧ isOpening c = false := by
  have first : ∀ c t, x.text = c :: t → isTame c = true :=
    fun c t same => all_eq_true.mp tame c (by simp [same])
  cases shape with
  | space blank => exact .inl ⟨_, rfl, blank⟩
  | line | dash => exact absurd (first '-' _ rfl) (by decide)
  | block | openBlock | slash => exact absurd (first '/' _ rfl) (by decide)
  | quoted quote | openQuote quote =>
    exact absurd (first _ _ rfl) (by simp [isTame_of_isQuote quote])
  | bracket | openBracket => exact absurd (first '[' _ rfl) (by decide)
  | word nonempty all _ => exact .inr (.inl ⟨_, rfl, nonempty, all⟩)
  | symbol noWord plain => exact .inr (.inr ⟨_, rfl, noWord, plain⟩)

/-- They can stand before any character that is not of a word. -/
theorem tame_shape (noWord : isIdChar c = false) : Shape x (some c) := by
  obtain ⟨_, rfl, blank⟩ | ⟨w, rfl, nonempty, all⟩ | ⟨_, rfl, noId, plain⟩ := tame_cases shape tame
  · exact .space blank
  · refine .word nonempty all fun d same => ?_
    cases same
    exact noWord
  · exact .symbol noId plain

theorem tame_neutral (noOpen : x ≠ openParen) (noClose : x ≠ closeParen) (noComma : x ≠ comma) :
    ∀ c ∈ x.text, c ≠ '(' ∧ c ≠ ')' ∧ c ≠ ',' := by
  intro c member
  obtain ⟨c', rfl, blank⟩ | ⟨w, rfl, _, all⟩ | ⟨c', rfl, _⟩ := tame_cases shape tame
  · obtain rfl := mem_singleton.mp member
    refine ⟨?_, ?_, ?_⟩ <;>
    · rintro rfl
      exact absurd blank (by decide)
  · exact neutral_of_isIdChar (all_eq_true.mp all c member)
  · obtain rfl := mem_singleton.mp member
    exact ⟨fun same => noOpen (congrArg Lexeme.symbol same),
      fun same => noClose (congrArg Lexeme.symbol same),
      fun same => noComma (congrArg Lexeme.symbol same)⟩

end

attribute [local simp] charFlat

theorem flat_textOf (chain : Chain ls) (tame : (textOf ls).all isTame = true) (d : Nat) :
    flat d ls = charFlat d (textOf ls) := by
  induction ls generalizing d with
  | nil => rfl
  | cons x ls ih =>
    rw [textOf_cons, all_append, and_eq_true] at tame
    have rest := ih chain.2 tame.2
    rw [textOf_cons, flat]
    by_cases opens : x = openParen
    · simp [opens, openParen, Lexeme.text, rest]
    by_cases closes : x = closeParen
    · simp [closes, closeParen, openParen, Lexeme.text, rest]
    by_cases separates : x = comma
    · simp [separates, comma, closeParen, openParen, Lexeme.text, rest]
    · have neutral := tame_neutral (fits_iff_shape.mp chain.1) tame.1 opens closes separates
      rw [if_neg opens, if_neg closes, if_neg fun both => separates both.1, rest,
        charFlat_skip neutral]

theorem isIdChar_of_isWordByte (wordByte : isWordByte c = true) : isIdChar c = true := by
  simp only [isWordByte, or_eq_true] at wordByte
  obtain alphanum | underscore := wordByte
  · simp [isIdChar, alphanum]
  · simp [isIdChar, underscore]

theorem isWordByte_of_isIdChar (noWord : isIdChar c = false) : isWordByte c = false :=
  Bool.eq_false_iff.mpr fun wordByte => by simp [isIdChar_of_isWordByte wordByte] at noWord

theorem isOpening_of_isIdChar (idChar : isIdChar c = true) : isOpening c = false :=
  Bool.eq_false_iff.mpr fun opening => by simp [isIdChar_of_isOpening opening] at idChar

/-- The check of the characters counts parentheses as the lexemes have them. -/
theorem checkCharacters_ok {d : Nat} {e : Int} (ok : checkCharacters d t = .ok e) :
    t.all isTame = true ∧ ∃ n : Nat, e = n ∧ charFlat d t = some n := by
  induction t generalizing d with
  | nil =>
    cases ok
    exact ⟨rfl, d, rfl, rfl⟩
  | cons c t ih =>
    by_cases opens : c = '('
    · subst opens
      obtain ⟨tame, n, rfl, depth⟩ := ih (d := d + 1) (by exact_mod_cast ok)
      exact ⟨by simp [tame]; decide, n, rfl, by simp [depth]⟩
    by_cases closes : c = ')'
    · subst closes
      rw [checkCharacters] at ok
      split at ok
      · cases ok
      have one : (d : Int) - 1 = ((d - 1 : Nat) : Int) := by omega
      rw [one] at ok
      obtain ⟨tame, n, rfl, depth⟩ := ih ok
      have deep : d ≠ 0 := by omega
      exact ⟨by simp [tame]; decide, n, rfl, by simp [depth, deep]⟩
    · rw [checkCharacters] at ok
      · split at ok
        · cases ok
        split at ok
        · rename_i noComma allowed
          obtain ⟨tame, n, rfl, depth⟩ := ih ok
          have noSplit : ¬(c = ',' ∧ d = 0) := fun both => noComma ⟨both.1, by simp [both.2]⟩
          refine ⟨?_, n, rfl, by simp [opens, closes, noSplit, depth]⟩
          rw [all_cons, tame, Bool.and_true]
          simp only [or_eq_true, beq_iff_eq] at allowed
          obtain (wordByte | blank) | rfl := allowed
          · simp [isTame, isOpening_of_isIdChar (isIdChar_of_isWordByte wordByte)]
          · simp [isTame, blank]
          · decide
        · cases ok
      · exact fun same => opens same
      · exact fun same => closes same

theorem isTame_of_isWhitespace (blank : isWhitespace c = true) :
    isTame c = true ∧ c ≠ '(' ∧ c ≠ ')' ∧ c ≠ ',' := by
  refine ⟨?_, ?_, ?_, ?_⟩
  · by_contra wild
    rw [Bool.not_eq_true, isTame, Bool.or_eq_false_iff, Bool.not_eq_false'] at wild
    simp only [isOpening, isQuote, or_eq_true, beq_iff_eq] at wild
    obtain ⟨((((space | rfl) | rfl) | ((rfl | rfl) | rfl)) | rfl), noSpace⟩ := wild
    · exact absurd space (by simp [noSpace])
    all_goals exact absurd blank (by decide)
  all_goals
    rintro rfl
    exact absurd blank (by decide)

theorem charFlat_append (s t : Str) (d : Nat) :
    charFlat d (s ++ t) = (charFlat d s).bind fun e => charFlat e t := by
  induction s generalizing d with
  | nil => rfl
  | cons c s ih =>
    simp only [cons_append, charFlat]
    repeat' split
    all_goals first
      | rfl
      | exact ih _

/-- An accepted type is made of words, blanks and symbols, and is balanced. -/
theorem accepted_type {dataType : Str} (ok : validateDeclaredType dataType = .ok ()) :
    dataType.all isTame = true ∧ flat 0 (lexemes dataType) = some 0 ∧ dataType ≠ [] := by
  unfold validateDeclaredType at ok
  simp only at ok
  split at ok
  · cases ok
  split at ok
  · cases ok
  split at ok
  · cases ok
  rename_i nonempty _ _ depth checked
  split at ok
  · cases ok
  rename_i closed
  obtain ⟨tame, n, rfl, counted⟩ := checkCharacters_ok (d := 0) checked
  obtain rfl : n = 0 := by
    by_contra deep
    exact closed (by exact_mod_cast deep)
  -- The blanks around the type are tame, too.
  have front : ∀ c ∈ dataType.takeWhile isWhitespace, isWhitespace c = true :=
    fun c member => mem_takeWhile_imp member
  have back : ∀ c ∈ (trimStart dataType).rtakeWhile isWhitespace, isWhitespace c = true :=
    fun c member => mem_rtakeWhile_imp member
  have whole : dataType = dataType.takeWhile isWhitespace ++
      (trim dataType ++ (trimStart dataType).rtakeWhile isWhitespace) := by
    rw [trim, trimEnd, rdropWhile_append_rtakeWhile]
    exact List.takeWhile_append_dropWhile.symm
  have allTame : dataType.all isTame = true := by
    rw [whole, all_append, all_append, tame, Bool.true_and, and_eq_true,
      all_eq_true, all_eq_true]
    exact ⟨fun c member => (isTame_of_isWhitespace (front c member)).1,
      fun c member => (isTame_of_isWhitespace (back c member)).1⟩
  refine ⟨allTame, ?_, ?_⟩
  · rw [flat_textOf (chain_lexemes dataType) (by rwa [textOf_lexemes]), textOf_lexemes, whole,
      charFlat_skip fun c member => (isTame_of_isWhitespace (front c member)).2, charFlat_append,
      counted]
    have last := charFlat_skip (fun c member => (isTame_of_isWhitespace (back c member)).2) [] 0
    rwa [append_nil] at last
  · rintro rfl
    exact nonempty rfl

/-! ## Blanks around an entry -/

theorem blank_of_not_isOpening (plain : isOpening c = false) : isAsciiWhitespace c = false := by
  by_contra blank
  exact absurd plain (by simp [isOpening, Bool.not_eq_false _ |>.mp blank])

theorem blank_of_isIdChar (idChar : isIdChar c = true) : isAsciiWhitespace c = false :=
  blank_of_not_isOpening (isOpening_of_isIdChar idChar)

/-- A lexeme begins with a blank when it is one. -/
theorem first_char (shape : Shape x o) :
    ∃ c t, x.text = c :: t ∧ isAsciiWhitespace c = isSpace x := by
  cases shape with
  | space blank => exact ⟨_, _, rfl, blank⟩
  | line | dash => exact ⟨'-', _, rfl, rfl⟩
  | block | openBlock | slash => exact ⟨'/', _, rfl, rfl⟩
  | quoted quote | openQuote quote => exact ⟨_, _, rfl, (quote_plain quote).1⟩
  | bracket | openBracket => exact ⟨'[', _, rfl, rfl⟩
  | @word t _ nonempty all _ =>
    obtain ⟨c, t, rfl⟩ := exists_cons_of_ne_nil nonempty
    simp only [all_cons, and_eq_true] at all
    exact ⟨c, t, rfl, blank_of_isIdChar all.1⟩
  | symbol _ plain => exact ⟨_, _, rfl, blank_of_not_isOpening plain⟩

theorem Closes.getLast? (closes : Closes q t) : t.getLast? = some q := by
  induction closes with
  | quote => rfl
  | @doubled t rest ih =>
    obtain ⟨c, t, rfl⟩ := exists_cons_of_ne_nil rest.ne_nil
    simpa using ih
  | @other c t _ rest ih =>
    obtain ⟨d, t, rfl⟩ := exists_cons_of_ne_nil rest.ne_nil
    simpa using ih

/-- A closed lexeme other than a blank or a comment does not end with a blank. -/
theorem last_char (shape : Shape x (some c)) (noTrivia : isTrivia x = false) :
    ∃ front d, x.text = front ++ [d] ∧ isAsciiWhitespace d = false := by
  cases shape with
  | space | line | block => cases noTrivia
  | @quoted q t _ quote closes _ =>
    obtain ⟨front, rfl⟩ := getLast?_eq_some_iff.mp (Closes.getLast? closes)
    exact ⟨q :: front, q, rfl, (quote_plain quote).1⟩
  | @bracket t _ _ => exact ⟨'[' :: t, ']', rfl, rfl⟩
  | @word t _ nonempty all _ =>
    refine ⟨t.dropLast, t.getLast nonempty, (dropLast_append_getLast nonempty).symm, ?_⟩
    exact blank_of_isIdChar (all_eq_true.mp all _ (getLast_mem nonempty))
  | symbol _ plain => exact ⟨[], _, rfl, blank_of_not_isOpening plain⟩
  | dash => exact ⟨[], '-', rfl, rfl⟩
  | slash => exact ⟨[], '/', rfl, rfl⟩

theorem dropWhile_textOf (chain : Chain ls) :
    (textOf ls).takeWhile isAsciiWhitespace = textOf (ls.takeWhile isSpace) ∧
      (textOf ls).dropWhile isAsciiWhitespace = textOf (ls.dropWhile isSpace) := by
  induction ls with
  | nil => exact ⟨rfl, rfl⟩
  | cons x ls ih =>
    obtain ⟨c, t, same, blank⟩ := first_char (fits_iff_shape.mp chain.1)
    cases space : isSpace x with
    | true =>
      obtain ⟨taken, dropped⟩ := ih chain.2
      cases x with
      | space c' =>
        obtain ⟨rfl, rfl⟩ : c' = c ∧ [] = t := by simpa [Lexeme.text] using same
        simp [Lexeme.text, blank, space, taken, dropped]
      | _ => cases space
    | false =>
      simp [same, blank, space]

theorem rdropWhile_append_stop {d : Char} (noBlank : isAsciiWhitespace d = false)
    (front back : Str) : (front ++ [d] ++ back).rdropWhile isAsciiWhitespace =
      front ++ [d] ++ back.rdropWhile isAsciiWhitespace := by
  induction back using List.reverseRecOn with
  | nil => simp [noBlank]
  | append_singleton back c ih =>
    rw [← append_assoc, rdropWhile_concat, rdropWhile_concat]
    split
    · exact ih
    · simp

/-! ## The name of a column -/

/-- The characters that end a bare name for the rewriter. -/
def endsName (c : Char) : Bool :=
  isWhitespace c || c == '(' || c == ')' || c == ',' || c == ';'

def nameOf : Lexeme → Str
  | .quoted t => unquote t
  | x => x.text

def isQuotedName : Lexeme → Bool
  | .quoted _ => true
  | _ => false

def isName : Lexeme → Bool
  | .quoted _ | .word _ => true
  | _ => false

/-- The name is read where it ends: it is quoted, or bare without a Unicode blank in it and with
a blank, a parenthesis or the end behind it. -/
def NameEnds : Lexeme → Option Char → Prop
  | .quoted _, _ => True
  | .word w, o => (w.all fun c => !isWhitespace c) = true ∧ ∀ c ∈ o, endsName c = true
  | _, _ => False

theorem NameEnds.last (ends : NameEnds x o) : NameEnds x none := by
  cases x with
  | quoted => trivial
  | word => exact ⟨ends.1, by simp⟩
  | _ => cases ends

section Names

variable {rest : Str}

theorem undouble_cons (different : c ≠ q) (t : Str) : undouble q (c :: t) = c :: undouble q t := by
  cases t with
  | nil => rfl
  | cons d t => rw [undouble, if_neg fun both => different both.1]

theorem readQuoted_closes (noBracket : q ≠ ']') (closes : Closes q t) (single : rest.head? ≠ some q) :
    readQuoted q (t ++ rest) = some (undouble q t.dropLast, rest) := by
  induction closes with
  | quote =>
    cases rest with
    | nil => simp [readQuoted, undouble]
    | cons d rest =>
      have different : d ≠ q := by simpa using single
      simp [readQuoted, undouble, different]
  | @doubled t more ih =>
    obtain ⟨c, t, rfl⟩ := exists_cons_of_ne_nil more.ne_nil
    rw [cons_append, cons_append, readQuoted, if_pos rfl, if_pos ⟨noBracket, rfl⟩, ih]
    simp [before, undouble]
  | @other c t different more ih =>
    obtain ⟨d, t, rfl⟩ := exists_cons_of_ne_nil more.ne_nil
    have last : (c :: d :: t).dropLast = c :: (d :: t).dropLast := rfl
    rw [cons_append, cons_append, readQuoted, if_neg different, ← cons_append, ih,
      last, undouble_cons different]
    rfl

theorem readQuoted_bracket (name : ']' ∉ t) (rest : Str) :
    readQuoted ']' (t ++ ']' :: rest) = some (t, rest) := by
  induction t with
  | nil => cases rest <;> simp [readQuoted]
  | cons c t ih =>
    rw [mem_cons, not_or] at name
    obtain ⟨d, u, same⟩ : ∃ d u, t ++ ']' :: rest = d :: u := by cases t <;> simp
    rw [cons_append, same, readQuoted, if_neg (Ne.symm name.1), ← same, ih name.2]
    rfl

theorem parseIdentifier_quoted (shape : Shape (.quoted t) rest.head?) :
    parseIdentifier (t ++ rest) = some ⟨unquote t, rest, true⟩ := by
  generalize head : rest.head? = o at shape
  cases shape with
  | @quoted q t _ quote closes single =>
    have kind : (q = '\'' ∨ q = '"' ∨ q = '\x60' ∨ q = '[') ∧ q ≠ '[' ∧ q ≠ ']' := by
      obtain (rfl | rfl) | rfl := quote_cases quote <;> decide
    rw [cons_append, parseIdentifier, if_pos kind.1, if_neg kind.2.1,
      readQuoted_closes kind.2.2 closes (head ▸ single)]
    simp [unquote, kind.2.1]
  | @bracket t _ name =>
    have read := readQuoted_bracket name rest
    simp [parseIdentifier, read, unquote]

theorem parseIdentifier_word (shape : Shape (.word w) rest.head?)
    (ends : NameEnds (.word w) rest.head?) :
    parseIdentifier (w ++ rest) = some ⟨w, rest, false⟩ := by
  generalize head : rest.head? = o at shape
  cases shape with
  | word nonempty all _ =>
    have inside : w.all (fun c => !endsName c) = true := by
      rw [all_eq_true]
      intro c member
      have noBlank : isWhitespace c = false := by
        simpa using all_eq_true.mp ends.1 c member
      obtain ⟨noOpen, noClose, noComma⟩ := neutral_of_isIdChar (all_eq_true.mp all c member)
      have noSemicolon : c ≠ ';' := by
        rintro rfl
        exact absurd (all_eq_true.mp all _ member) (by decide)
      simp [endsName, noBlank, noOpen, noClose, noComma, noSemicolon]
    obtain ⟨taken, dropped⟩ := takeWhile_append_stop inside
      (fun c member => by simp [ends.2 c member] : ∀ c ∈ rest.head?, (!endsName c) = false)
    obtain ⟨c, t, rfl⟩ := exists_cons_of_ne_nil nonempty
    simp only [all_cons, and_eq_true] at all
    have noQuote : ¬(c = '\'' ∨ c = '"' ∨ c = '\x60' ∨ c = '[') := by
      rintro (rfl | rfl | rfl | rfl) <;> exact absurd all.1 (by decide)
    simp only [endsName] at taken dropped
    simp only [cons_append] at taken dropped
    simp only [cons_append, parseIdentifier, if_neg noQuote, taken, dropped, isEmpty_cons,
      Bool.false_eq_true, if_false]

theorem parseIdentifier_name (shape : Shape x rest.head?) (ends : NameEnds x rest.head?) :
    parseIdentifier (x.text ++ rest) = some ⟨nameOf x, rest, isQuotedName x⟩ := by
  cases x with
  | quoted t => exact parseIdentifier_quoted shape
  | word w => exact parseIdentifier_word shape ends
  | _ => cases ends

/-- Nothing is passed over before a name. -/
theorem skip_name (shape : Shape x o) (name : isName x = true) (rest : Str) :
    skipSpaceAndComments (x.text ++ rest) = some (x.text ++ rest) := by
  cases shape with
  | @quoted q t _ quote =>
    have kind := quote_plain quote
    exact skip_stop kind.1 kind.2.1 kind.2.2
  | bracket => exact skip_stop (by decide) (by decide) (by decide)
  | word nonempty all _ =>
    obtain ⟨c, t, rfl⟩ := exists_cons_of_ne_nil nonempty
    simp only [all_cons, and_eq_true] at all
    apply skip_stop (blank_of_isIdChar all.1)
    all_goals
      rintro rfl
      exact absurd all.1 (by decide)
  | _ => cases name

end Names

/-! ## The search for a constraint -/

/-- None of the words that the search finds in the text is a keyword. -/
def keywordFree (inWord : Bool) : Str → Bool
  | [] => true
  | c :: t =>
    if inWord && isWordByte c then keywordFree true t
    else if c.isAlpha || c == '_' then
      !isColumnConstraintKeyword (c :: t.takeWhile isWordByte) && keywordFree true t
    else keywordFree false t

section Search

variable {ms : List Mark} {d : Nat}

theorem find_fresh (stop : ∀ c ∈ (ms.map Prod.fst).head?, isWordByte c = false) (b : Bool) :
    findColumnConstraintStart d b ms = findColumnConstraintStart d false ms := by
  cases ms with
  | nil => rfl
  | cons m ms =>
    have noWord : isWordByte m.1 = false := stop m.1 rfl
    simp [findColumnConstraintStart, noWord]

theorem find_hidden : findColumnConstraintStart d false (hiddenMarks t ++ ms) =
    (findColumnConstraintStart d false ms).map (before t) := by
  induction t with
  | nil => simp [hiddenMarks]
  | cons c t ih =>
    have step : findColumnConstraintStart d false (hiddenMarks (c :: t) ++ ms) =
        (findColumnConstraintStart d false (hiddenMarks t ++ ms)).map (before [c]) := by
      simp [hiddenMarks, findColumnConstraintStart]
    rw [step, ih, before_before]
    rfl

theorem find_symbol (noWord : isIdChar c = false) :
    findColumnConstraintStart d false (plainMarks [c] ++ ms) =
      (findColumnConstraintStart (depthAfter d (.symbol c)) false ms).map (before [c]) := by
  have noLetter : (c.isAlpha || c == '_') = false := by
    have noByte := isWordByte_of_isIdChar noWord
    simp only [isWordByte, Char.isAlphanum, Bool.or_eq_false_iff] at noByte ⊢
    exact ⟨noByte.1.1, noByte.2⟩
  simp only [plainMarks, map_cons, map_nil, singleton_append,
    findColumnConstraintStart, Bool.false_and, Bool.false_eq_true, if_false, Bool.true_and,
    beq_iff_eq, noLetter, Bool.and_false, depthAfter, openParen, closeParen, Lexeme.symbol.injEq]
  split
  · rfl
  split
  · rfl
  · rfl

/-- In parentheses no word is looked at. -/
theorem find_word_inner (all : w.all isIdChar = true) (inner : d ≠ 0) :
    findColumnConstraintStart d false (plainMarks w ++ ms) =
      (findColumnConstraintStart d false ms).map (before w) := by
  induction w with
  | nil => simp [plainMarks]
  | cons c w ih =>
    simp only [all_cons, and_eq_true] at all
    obtain ⟨noOpen, noClose, _⟩ := neutral_of_isIdChar all.1
    have step : findColumnConstraintStart d false (plainMarks (c :: w) ++ ms) =
        (findColumnConstraintStart d false (plainMarks w ++ ms)).map (before [c]) := by
      simp [plainMarks, findColumnConstraintStart, noOpen, noClose, inner]
    rw [step, ih all.2, before_before]
    rfl

theorem map_fst_plainMarks (w : Str) : (plainMarks w).map Prod.fst = w := by
  simp [plainMarks, Function.comp_def]

theorem takeWhile_append_of_stop (w : Str) {rest : Str}
    (stop : ∀ c ∈ rest.head?, isWordByte c = false) :
    (w ++ rest).takeWhile isWordByte = w.takeWhile isWordByte := by
  induction w with
  | nil =>
    cases rest with
    | nil => rfl
    | cons c rest => simp [stop c rfl]
  | cons c w ih => simp [takeWhile_cons, ih]

theorem find_word (all : w.all isIdChar = true) (b : Bool) (free : keywordFree b w = true)
    (stop : ∀ c ∈ (ms.map Prod.fst).head?, isWordByte c = false) :
    findColumnConstraintStart 0 b (plainMarks w ++ ms) =
      (findColumnConstraintStart 0 false ms).map (before w) := by
  induction w generalizing b with
  | nil => simpa [plainMarks] using find_fresh stop b
  | cons c w ih =>
    simp only [all_cons, and_eq_true] at all
    obtain ⟨noOpen, noClose, _⟩ := neutral_of_isIdChar all.1
    unfold keywordFree at free
    have step : ∃ b', keywordFree b' w = true ∧
        findColumnConstraintStart 0 b (plainMarks (c :: w) ++ ms) =
          (findColumnConstraintStart 0 b' (plainMarks w ++ ms)).map (before [c]) := by
      have cons : plainMarks (c :: w) ++ ms = (c, true) :: (plainMarks w ++ ms) := rfl
      split at free
      · rename_i inWord
        exact ⟨true, free, by rw [cons, findColumnConstraintStart, if_pos inWord]⟩
      split at free
      · rename_i fresh letter
        rw [and_eq_true, Bool.not_eq_true'] at free
        refine ⟨true, free.2, ?_⟩
        rw [cons, findColumnConstraintStart, if_neg fresh, map_append, map_fst_plainMarks,
          takeWhile_append_of_stop w stop]
        simp [noOpen, noClose, letter, free.1]
      · rename_i fresh noLetter
        refine ⟨false, free, ?_⟩
        rw [cons, findColumnConstraintStart, if_neg fresh]
        simp [noOpen, noClose, noLetter]
    obtain ⟨b', free, step⟩ := step
    rw [step, ih all.2 b' free, before_before]
    rfl

/-- What the search passes over: all but words that hold a keyword. -/
def isPassed : Lexeme → Bool
  | .word w => keywordFree false w
  | _ => true

theorem find_lexeme (shape : Shape x (ms.map Prod.fst).head?) (passed : isPassed x = true) (d : Nat) :
    findColumnConstraintStart d false (marksOf x ++ ms) =
      (findColumnConstraintStart (depthAfter d x) false ms).map (before x.text) := by
  generalize head : (ms.map Prod.fst).head? = o at shape
  cases shape with
  | word _ all stop =>
    by_cases inner : d = 0
    · subst inner
      exact find_word all false passed fun c member =>
        isWordByte_of_isIdChar (stop c (head ▸ member))
    · exact find_word_inner all inner
  | symbol noWord => exact find_symbol noWord
  | dash | slash => exact find_symbol (by decide)
  | _ => exact find_hidden

theorem find_lexemes {as bs : List Lexeme} (chain : Chain (as ++ bs))
    (passed : ∀ x ∈ as, isPassed x = true) (d : Nat) :
    findColumnConstraintStart d false ((as ++ bs).flatMap marksOf) =
      (findColumnConstraintStart (as.foldl depthAfter d) false (bs.flatMap marksOf)).map
        (before (textOf as)) := by
  induction as generalizing d with
  | nil => simp
  | cons x as ih =>
    have shape : Shape x (((as ++ bs).flatMap marksOf).map Prod.fst).head? := by
      rw [map_fst_flatMap]
      exact fits_iff_shape.mp chain.1
    rw [cons_append, flatMap_cons, find_lexeme shape (passed x mem_cons_self),
      ih chain.2 (forall_mem_cons.mp passed).2, before_before]
    rfl

/-- A keyword is a word of letters. -/
theorem keyword_letters (keyword : isColumnConstraintKeyword w = true) :
    w ≠ [] ∧ w.all Char.isAlpha = true := by
  have lower : toAsciiLowercase w ≠ [] ∧ (toAsciiLowercase w).all Char.isAlpha = true := by
    simp only [isColumnConstraintKeyword, map_cons, map_nil, contains_cons,
      contains_nil, Bool.or_false, or_eq_true, beq_iff_eq] at keyword
    obtain same | same | same | same | same | same | same | same := keyword <;>
    · rw [same]
      decide
  refine ⟨fun empty => lower.1 (by simp [empty, toAsciiLowercase]), ?_⟩
  rw [all_eq_true]
  intro c member
  have letter := all_eq_true.mp lower.2 c.toLower (mem_map_of_mem member)
  rwa [toLower_congr (f := Char.isAlpha) (by decide)] at letter

theorem find_keyword (chain : Chain (.word w :: ls)) (keyword : isColumnConstraintKeyword w = true) :
    findColumnConstraintStart 0 false ((Lexeme.word w :: ls).flatMap marksOf) =
      some ([], textOf (.word w :: ls)) := by
  obtain ⟨nonempty, letters⟩ := keyword_letters keyword
  obtain ⟨c, t, rfl⟩ := exists_cons_of_ne_nil nonempty
  simp only [all_cons, and_eq_true] at letters
  have stop : ∀ e ∈ (textOf ls).head?, isWordByte e = false := by
    intro e member
    have shape := fits_iff_shape.mp chain.1
    generalize (textOf ls).head? = o at shape member
    cases shape with
    | word _ _ stop => exact isWordByte_of_isIdChar (stop e member)
  have inside : t.takeWhile isWordByte = t := by
    rw [takeWhile_eq_self_iff]
    intro e member
    simp [isWordByte, Char.isAlphanum, all_eq_true.mp letters.2 e member]
  have noParen : c ≠ '(' ∧ c ≠ ')' := by
    refine ⟨?_, ?_⟩ <;>
    · rintro rfl
      exact absurd letters.1 (by decide)
  have marked : (Lexeme.word (c :: t) :: ls).flatMap marksOf =
      (c, true) :: (plainMarks t ++ ls.flatMap marksOf) := rfl
  rw [marked, findColumnConstraintStart, map_append, map_fst_plainMarks, map_fst_flatMap,
    takeWhile_append_of_stop t stop, inside]
  simp [noParen, letters.1, keyword, Lexeme.text]

end Search

end Dbx.Guarantees.ColumnReading
