import Dbx.Lib.Lexemes
import Dbx.Source.SqliteRewrite

/-!
# The scanners of SQLite statements and its lexemes

The scanners of `sqlite_rebuild.rs` take quotes and comments as SQLite does: the marks of a
text are those of its lexemes (`marks_textOf`), and what the scanners look for outside of
quotes and comments are symbols among the lexemes. So the body of a statement and its entries
are found where the lexemes have them (`findOpen_marksOf`, `findClose_marksOf`,
`splitEntries_marksOf`), and blanks and comments are passed over lexeme by lexeme
(`skip_trivia`).
-/
namespace Dbx.Guarantees.ScannedLexemes

open Dbx.Lib.Text Dbx.Lib.Lexemes Dbx.Source.SqliteRewrite List Option Function

/-! ## Marks -/

def plainMarks (t : Str) : List Mark := t.map fun c => (c, true)

def hiddenMarks (t : Str) : List Mark := t.map fun c => (c, false)

/-- The marks of a lexeme. -/
def marksOf : Lexeme → List Mark
  | .space c => hiddenMarks [c]
  | .comment t | .quoted t | .unclosed t => hiddenMarks t
  | .word t => plainMarks t
  | .symbol c => plainMarks [c]

@[simp] theorem map_fst_marksOf (x : Lexeme) : (marksOf x).map Prod.fst = x.text := by
  cases x <;> simp [marksOf, plainMarks, hiddenMarks, Lexeme.text, Function.comp_def]

@[simp] theorem map_fst_flatMap (ls : List Lexeme) :
    (ls.flatMap marksOf).map Prod.fst = textOf ls := by
  induction ls with
  | nil => rfl
  | cons x ls ih => simp [ih]

variable {x : Lexeme}

section Scan

variable {t rest : Str}

attribute [local simp] hiddenMarks plainMarks marksOf scan Lexeme.text

theorem scan_line (noBreak : '\n' ∉ t) (rest : Str) : scan .lineComment false (t ++ rest) =
    hiddenMarks t ++ scan .lineComment false rest := by
  induction t with
  | nil => rfl
  | cons c t ih =>
    rw [mem_cons, not_or] at noBreak
    simp [scanStep, Ne.symm noBreak.1, ih noBreak.2]

/-- A line comment ends before a line break or at the end. -/
theorem scan_line_end (ends : ∀ d ∈ rest.head?, d = '\n') :
    scan .lineComment false rest = scan .normal false rest := by
  cases rest with
  | nil => rfl
  | cons d rest =>
    rw [ends d rfl]
    simp [scanStep, isAsciiWhitespace]

theorem scan_block (ends : EndsBlock t) (rest : Str) : scan .blockComment false (t ++ rest) =
    hiddenMarks t ++ scan .normal false rest := by
  induction ends with
  | close => simp [scanStep]
  | @step c t goesOn more ih =>
    have head : (t ++ rest).head? = t.head? := by
      cases t with
      | nil => cases more
      | cons d t => rfl
    rw [cons_append, scan, head]
    simp [scanStep, goesOn, ih]

theorem scan_open_block (unfinished : closeBlock t = (t, [])) :
    scan .blockComment false t = hiddenMarks t := by
  induction t using closeBlock.induct with
  | case1 => rfl
  | case2 c => simp [scanStep]
  | case3 c d rest closes =>
    simp only [closeBlock, closes, and_self, if_true, Prod.mk.injEq, cons.injEq] at unfinished
    rw [← unfinished.1.2.2, closes.1, closes.2]
    simp [scanStep]
  | case4 c d rest goesOn ih =>
    simp only [closeBlock, goesOn, if_false, withFront, Prod.mk.injEq,
      cons_append, nil_append, cons.injEq, true_and] at unfinished
    have more := ih (Prod.ext unfinished.1 unfinished.2)
    rw [scan]
    simp [-scan, scanStep, goesOn, more]

/-- The mode of a quote. -/
def modeOf (q : Char) : ScanMode :=
  if q = '\'' then .singleQuote else if q = '"' then .doubleQuote else .backtick

section

variable {q : Char} (quote : isQuote q = true)
include quote

theorem scanStep_modeOf (c : Char) (next : Option Char) :
    scanStep (modeOf q) c next = quoteStep (modeOf q) q c next := by
  obtain (rfl | rfl) | rfl := quote_cases quote <;> rfl

theorem scanStep_quote (next : Option Char) :
    scanStep .normal q next = ⟨false, modeOf q, false⟩ := by
  obtain (rfl | rfl) | rfl := quote_cases quote <;> rfl

theorem scan_quoted (closes : Closes q t) (single : rest.head? ≠ some q) :
    scan (modeOf q) false (t ++ rest) =
      hiddenMarks t ++ scan .normal false rest := by
  induction closes with
  | quote => simp [scanStep_modeOf quote, quoteStep, single]
  | doubled _ ih => simp [scanStep_modeOf quote, quoteStep, ih]
  | other different _ ih =>
    simp [scanStep_modeOf quote, quoteStep, different, ih]

theorem scan_open_quote (open' : closeQuote q t = none) :
    scan (modeOf q) false t = hiddenMarks t := by
  induction t using closeQuote.induct q with
  | case1 => rfl
  | case2 => simp [closeQuote] at open'
  | case3 c different => simp [scanStep_modeOf quote, quoteStep, different]
  | case4 rest ih =>
    simp only [closeQuote, if_true, map_eq_none_iff] at open'
    simp [scanStep_modeOf quote, quoteStep, ih open']
  | case5 d rest different => simp [closeQuote, different] at open'
  | case6 c d rest different ih =>
    simp only [closeQuote, different, if_false, map_eq_none_iff] at open'
    rw [scan]
    simp [-scan, scanStep_modeOf quote, quoteStep, different, ih open']

end

theorem scan_bracket (name : ']' ∉ t) (rest : Str) : scan .bracket false (t ++ ']' :: rest) =
    hiddenMarks (t ++ [']']) ++ scan .normal false rest := by
  induction t with
  | nil => simp [scanStep]
  | cons c t ih =>
    rw [mem_cons, not_or] at name
    simp [scanStep, Ne.symm name.1, ih name.2]

theorem scan_open_bracket (open' : closeBracket t = none) :
    scan .bracket false t = hiddenMarks t := by
  induction t with
  | nil => rfl
  | cons c t ih =>
    unfold closeBracket at open'
    split at open'
    · cases open'
    · rename_i different
      simp [scanStep, different, ih (map_eq_none_iff.mp open')]

theorem scanStep_plain {c : Char} (plain : isOpening c = false) (next : Option Char) :
    scanStep .normal c next = ⟨true, .normal, false⟩ := by
  simp only [isOpening, isQuote, Bool.or_eq_false_iff, beq_eq_false_iff_ne] at plain
  obtain ⟨⟨⟨⟨blank, dash⟩, slash⟩, ⟨single, double⟩, back⟩, bracket⟩ := plain
  simp [scanStep, single, double, back, bracket, dash, slash, blank]

theorem scan_word (all : t.all isIdChar = true) (rest : Str) : scan .normal false (t ++ rest) =
    plainMarks t ++ scan .normal false rest := by
  induction t with
  | nil => rfl
  | cons c t ih =>
    simp only [all_cons, Bool.and_eq_true] at all
    have plain : isOpening c = false := by
      by_contra opening
      have noWord := isIdChar_of_isOpening (by simpa using opening)
      exact absurd all.1 (by simp [noWord])
    simp [scanStep_plain plain, ih all.2]

/-- The scanner passes over one lexeme. -/
theorem scan_lexeme (shape : Shape x rest.head?) : scan .normal false (x.text ++ rest) =
    marksOf x ++ scan .normal false rest := by
  generalize head : rest.head? = o at shape
  cases shape with
  | @space c _ blank =>
    have plain : c ≠ '\'' ∧ c ≠ '"' ∧ c ≠ '\x60' ∧ c ≠ '[' ∧ c ≠ '-' ∧ c ≠ '/' := by
      simp only [isAsciiWhitespace, Bool.or_eq_true, beq_iff_eq] at blank
      obtain (((rfl | rfl) | rfl) | rfl) | rfl := blank <;> decide
    simp [scanStep, plain, blank]
  | @line t _ noBreak ends =>
    rw [← head] at ends
    simp [scanStep, scan_line noBreak, scan_line_end ends]
  | @block t _ ends =>
    simp [scanStep, scan_block ends]
  | @openBlock t unfinished =>
    have empty : rest = [] := by simpa using head
    simp [empty, scanStep, scan_open_block unfinished]
  | @quoted q t _ quote closes single =>
    rw [← head] at single
    simp [scanStep_quote quote, scan_quoted quote closes single]
  | @bracket t _ name =>
    have inner := scan_bracket name rest
    simp [scanStep, inner]
  | word _ all _ => exact scan_word all rest
  | symbol noWord plain =>
    simp [scanStep_plain plain]
  | dash single =>
    rw [← head] at single
    simp [scanStep, single, isAsciiWhitespace]
  | slash single =>
    rw [← head] at single
    simp [scanStep, single, isAsciiWhitespace]
  | @openQuote q t quote unfinished =>
    have empty : rest = [] := by simpa using head
    simp [empty, scanStep_quote quote, scan_open_quote quote unfinished]
  | @openBracket t unfinished =>
    have empty : rest = [] := by simpa using head
    simp [empty, scanStep, scan_open_bracket unfinished]

end Scan

theorem marks_textOf {ls : List Lexeme} (chain : Chain ls) :
    marks (textOf ls) = ls.flatMap marksOf := by
  induction ls with
  | nil => rfl
  | cons x ls ih =>
    unfold marks at ih ⊢
    rw [textOf_cons, scan_lexeme (fits_iff_shape.mp chain.1), ih chain.2]
    rfl

/-! ## Parentheses and commas -/

def openParen : Lexeme := .symbol '('

def closeParen : Lexeme := .symbol ')'

def comma : Lexeme := .symbol ','

/-- The lexemes before the first parenthesis, and those behind it. -/
def splitOpen : List Lexeme → Option (List Lexeme × List Lexeme)
  | [] => none
  | x :: ls => if x = openParen then some ([], ls) else (splitOpen ls).map fun found => (x :: found.1, found.2)

/-- The lexemes up to the parenthesis that closes, and those behind it. -/
def splitClose (depth : Nat) : List Lexeme → Option (List Lexeme × List Lexeme)
  | [] => none
  | x :: ls =>
    if x = openParen then (splitClose (depth + 1) ls).map fun found => (x :: found.1, found.2)
    else if x = closeParen then
      if depth = 0 then some ([], ls)
      else (splitClose (depth - 1) ls).map fun found => (x :: found.1, found.2)
    else (splitClose depth ls).map fun found => (x :: found.1, found.2)

def onFirstList (x : Lexeme) : List (List Lexeme) → List (List Lexeme)
  | [] => [[x]]
  | entry :: entries => (x :: entry) :: entries

/-- The lexemes between the commas outside of parentheses. -/
def splitCommas (depth : Nat) : List Lexeme → List (List Lexeme)
  | [] => [[]]
  | x :: ls =>
    if x = openParen then onFirstList x (splitCommas (depth + 1) ls)
    else if x = closeParen then onFirstList x (splitCommas (depth - 1) ls)
    else if x = comma ∧ depth = 0 then [] :: splitCommas depth ls
    else onFirstList x (splitCommas depth ls)

/-- The mark does not matter to a scanner of parentheses and commas. -/
def Neutral (m : Mark) : Prop := m.2 = true → m.1 ≠ '(' ∧ m.1 ≠ ')' ∧ m.1 ≠ ','

theorem marksOf_neutral {o : Option Char} (shape : Shape x o) (noOpen : x ≠ openParen)
    (noClose : x ≠ closeParen) (noComma : x ≠ comma) : ∀ m ∈ marksOf x, Neutral m := by
  intro m member plain
  cases shape with
  | word _ all _ =>
    simp only [marksOf, plainMarks, List.mem_map] at member
    obtain ⟨c, listed, rfl⟩ := member
    have idChar := all_eq_true.mp all c listed
    refine ⟨?_, ?_, ?_⟩ <;>
    · rintro rfl
      exact absurd idChar (by decide)
  | symbol | dash | slash =>
    simp only [marksOf, plainMarks, map_cons, map_nil, mem_singleton] at member
    subst member
    exact ⟨fun same => noOpen (congrArg Lexeme.symbol same),
      fun same => noClose (congrArg Lexeme.symbol same),
      fun same => noComma (congrArg Lexeme.symbol same)⟩
  | _ =>
    simp only [marksOf, hiddenMarks, List.mem_map] at member
    obtain ⟨c, _, rfl⟩ := member
    cases plain

section Neutral

variable {α : Type} {m : Mark} {front back : List Mark}

theorem Neutral.ne (neutral : Neutral m) : (m.2 && m.1 == '(') = false ∧
    (m.2 && m.1 == ')') = false ∧ (m.2 && m.1 == ',') = false := by
  cases plain : m.2 with
  | false => simp
  | true =>
    obtain ⟨noOpen, noClose, noComma⟩ := neutral plain
    simp [noOpen, noClose, noComma]

@[simp] theorem before_nil (found : Option (Str × α)) : found.map (before []) = found := by
  cases found <;> simp [before]

theorem before_before (a b : Str) (found : Option (Str × α)) :
    (found.map (before b)).map (before a) = found.map (before (a ++ b)) := by
  cases found <;> simp [before]

theorem findOpen_neutral (neutral : ∀ m ∈ front, Neutral m) :
    findOpen (front ++ back) = (findOpen back).map (before (front.map Prod.fst)) := by
  induction front with
  | nil => simp
  | cons m front ih =>
    obtain ⟨noOpen, _, _⟩ := (neutral m mem_cons_self).ne
    rw [cons_append, findOpen, ih (forall_mem_cons.mp neutral).2, noOpen]
    exact before_before ..

theorem findClose_neutral (neutral : ∀ m ∈ front, Neutral m) (depth : Nat) :
    findClose depth (front ++ back) =
      (findClose depth back).map (before (front.map Prod.fst)) := by
  induction front with
  | nil => simp
  | cons m front ih =>
    obtain ⟨noOpen, noClose, _⟩ := (neutral m mem_cons_self).ne
    rw [cons_append, findClose, ih (forall_mem_cons.mp neutral).2, noOpen,
      noClose]
    exact before_before ..

/-- A text before the first entry. -/
def onFirstText (front : Str) : List Str → List Str
  | [] => [front]
  | entry :: entries => (front ++ entry) :: entries

theorem onFirst_eq (c : Char) (entries : List Str) : onFirst c entries = onFirstText [c] entries := by
  cases entries <;> rfl

theorem onFirstText_append (a b : Str) (entries : List Str) :
    onFirstText a (onFirstText b entries) = onFirstText (a ++ b) entries := by
  cases entries <;> simp [onFirstText]

theorem splitEntries_ne_nil {depth : Nat} {ms : List Mark} : splitEntries depth ms ≠ [] := by
  have onFirst_ne_nil : ∀ c entries, onFirst c entries ≠ [] := by
    intro c entries
    cases entries <;> simp [onFirst]
  cases ms with
  | nil => simp [splitEntries]
  | cons m ms =>
    unfold splitEntries
    repeat' split
    all_goals first
      | exact onFirst_ne_nil _ _
      | simp

theorem splitEntries_neutral (neutral : ∀ m ∈ front, Neutral m) (depth : Nat) :
    splitEntries depth (front ++ back) =
      onFirstText (front.map Prod.fst) (splitEntries depth back) := by
  induction front with
  | nil =>
    cases entries : splitEntries depth back with
    | nil => exact absurd entries splitEntries_ne_nil
    | cons entry rest => simp [onFirstText, entries]
  | cons m front ih =>
    obtain ⟨noOpen, noClose, noComma⟩ := (neutral m mem_cons_self).ne
    rw [cons_append, splitEntries, ih (forall_mem_cons.mp neutral).2, noOpen,
      noClose, noComma]
    simp only [Bool.false_eq_true, if_false, Bool.false_and, onFirst_eq, onFirstText_append]
    rfl

end Neutral

section Structure

variable {ls : List Lexeme}

attribute [local simp] openParen closeParen comma plainMarks Lexeme.text before

/-- A parenthesis, a comma, or a lexeme that does not matter to the structure. -/
theorem lexeme_cases {o : Option Char} (shape : Shape x o) :
    x = openParen ∨ x = closeParen ∨ x = comma ∨
      (x ≠ openParen ∧ x ≠ closeParen ∧ x ≠ comma ∧ ∀ m ∈ marksOf x, Neutral m) := by
  by_cases opens : x = openParen
  · exact .inl opens
  by_cases closes : x = closeParen
  · exact .inr (.inl closes)
  by_cases separates : x = comma
  · exact .inr (.inr (.inl separates))
  · exact .inr (.inr (.inr ⟨opens, closes, separates, marksOf_neutral shape opens closes separates⟩))

theorem findOpen_marksOf (chain : Chain ls) : findOpen (ls.flatMap marksOf) =
    (splitOpen ls).map fun found => (textOf found.1, found.2.flatMap marksOf) := by
  induction ls with
  | nil => rfl
  | cons x ls ih =>
    have rest := ih chain.2
    rw [flatMap_cons, splitOpen]
    obtain rfl | rfl | rfl | ⟨noOpen, _, _, neutral⟩ := lexeme_cases (fits_iff_shape.mp chain.1)
    · simp [marksOf, findOpen]
    · simp [marksOf, findOpen, rest, comp_def]
    · simp [marksOf, findOpen, rest, comp_def]
    · rw [findOpen_neutral neutral, rest, if_neg noOpen]
      simp [comp_def]

theorem findClose_marksOf (chain : Chain ls) (depth : Nat) : findClose depth (ls.flatMap marksOf) =
    (splitClose depth ls).map fun found => (textOf found.1, textOf found.2) := by
  induction ls generalizing depth with
  | nil => rfl
  | cons x ls ih =>
    have rest := ih chain.2
    rw [flatMap_cons, splitClose]
    obtain rfl | rfl | rfl | ⟨noOpen, noClose, _, neutral⟩ :=
      lexeme_cases (fits_iff_shape.mp chain.1)
    · simp [marksOf, findClose, rest, comp_def]
    · by_cases outermost : depth = 0
      · simp [marksOf, findClose, outermost]
      · simp [marksOf, findClose, outermost, rest, comp_def]
    · simp [marksOf, findClose, rest, comp_def]
    · rw [findClose_neutral neutral, rest, if_neg noOpen, if_neg noClose]
      simp [comp_def]

theorem map_onFirstList (x : Lexeme) (entries : List (List Lexeme)) :
    (onFirstList x entries).map textOf = onFirstText x.text (entries.map textOf) := by
  cases entries <;> simp [onFirstList, onFirstText]

theorem splitEntries_marksOf (chain : Chain ls) (depth : Nat) :
    splitEntries depth (ls.flatMap marksOf) = (splitCommas depth ls).map textOf := by
  induction ls generalizing depth with
  | nil => rfl
  | cons x ls ih =>
    have rest := ih chain.2
    rw [flatMap_cons, splitCommas]
    obtain rfl | rfl | rfl | ⟨noOpen, noClose, noComma, neutral⟩ :=
      lexeme_cases (fits_iff_shape.mp chain.1)
    · simp [marksOf, splitEntries, rest, map_onFirstList, onFirst_eq]
    · simp [marksOf, splitEntries, rest, map_onFirstList, onFirst_eq]
    · by_cases outermost : depth = 0
      · simp [marksOf, splitEntries, outermost, rest]
      · simp [marksOf, splitEntries, outermost, rest, map_onFirstList, onFirst_eq]
    · rw [splitEntries_neutral neutral, rest, if_neg noOpen, if_neg noClose,
        if_neg fun separates => noComma separates.1, map_onFirstList]
      simp

/-- The entries of a text are those of its lexemes. -/
theorem splitEntries_lexemes (text : Str) :
    splitEntries 0 (marks text) = (splitCommas 0 (lexemes text)).map textOf := by
  have chain := chain_lexemes text
  rw [← splitEntries_marksOf chain, ← marks_textOf chain, textOf_lexemes]

end Structure

/-! ## Blanks and comments -/

def isSpace : Lexeme → Bool
  | .space _ => true
  | _ => false

def isTrivia : Lexeme → Bool
  | .space _ | .comment _ => true
  | _ => false

section Skip

variable {c : Char} {t rest : Str}

theorem skip_eq (text : Str) : skipSpaceAndComments text =
    if "--".toList.isPrefixOf (skipSpace text) then
      skipSpaceAndComments (((skipSpace text).drop 2).dropWhile (· != '\n'))
    else if "/*".toList.isPrefixOf (skipSpace text) then
      (afterBlock ((skipSpace text).drop 2)).bind skipSpaceAndComments
    else some (skipSpace text) := by
  rw [skipSpaceAndComments]
  split
  · rfl
  split
  · split
    · rename_i none
      rw [none]
      rfl
    · rename_i behind found
      rw [found]
      rfl
  · rfl

theorem skip_space (blank : isAsciiWhitespace c = true) (t : Str) :
    skipSpaceAndComments (c :: t) = skipSpaceAndComments t := by
  rw [skip_eq, skip_eq t]
  simp [skipSpace, blank]

theorem skip_line (noBreak : '\n' ∉ t) (ends : ∀ d ∈ rest.head?, d = '\n') :
    skipSpaceAndComments ('-' :: '-' :: (t ++ rest)) = skipSpaceAndComments rest := by
  have all : t.all (· != '\n') = true := by
    rw [List.all_eq_true]
    intro d member
    have different : d ≠ '\n' := fun same => noBreak (same ▸ member)
    simpa using different
  have stop : ∀ d ∈ rest.head?, (d != '\n') = false := fun d head => by simp [ends d head]
  have dropped := (takeWhile_append_stop all stop).2
  rw [skip_eq]
  simp [skipSpace, isAsciiWhitespace, isPrefixOf, dropped]

theorem afterBlock_ends (ends : EndsBlock t) (rest : Str) : afterBlock (t ++ rest) = some rest := by
  unfold afterBlock
  induction ends with
  | close => simp [afterFirst, isPrefixOf]
  | @step c t goesOn more ih =>
    cases t with
    | nil => cases more
    | cons d t =>
      have different : ¬(c = '*' ∧ d = '/') := by simpa using goesOn
      have noPrefix : "*/".toList.isPrefixOf (c :: d :: (t ++ rest)) = false := by
        rw [show "*/".toList = ['*', '/'] from rfl]
        by_contra found
        simp only [Bool.not_eq_false, isPrefixOf, Bool.and_true, Bool.and_eq_true,
          beq_iff_eq] at found
        exact different ⟨found.1.symm, found.2.symm⟩
      rw [cons_append, cons_append, afterFirst, noPrefix]
      exact ih

theorem skip_block (ends : EndsBlock t) :
    skipSpaceAndComments ('/' :: '*' :: (t ++ rest)) = skipSpaceAndComments rest := by
  rw [skip_eq]
  simp [skipSpace, isAsciiWhitespace, isPrefixOf, afterBlock_ends ends]

theorem skip_stop (noBlank : isAsciiWhitespace c = false) (noDash : c ≠ '-') (noSlash : c ≠ '/') : skipSpaceAndComments (c :: t) = some (c :: t) := by
  rw [skip_eq]
  simp [skipSpace, noBlank, isPrefixOf, Ne.symm noDash, Ne.symm noSlash]

theorem skip_lexeme (trivia : isTrivia x = true) (shape : Shape x rest.head?) (more : rest ≠ []) :
    skipSpaceAndComments (x.text ++ rest) = skipSpaceAndComments rest := by
  generalize head : rest.head? = o at shape
  cases shape with
  | space blank => exact skip_space blank rest
  | line noBreak ends => exact skip_line noBreak (head ▸ ends)
  | block ends => exact skip_block ends
  | openBlock => exact absurd (by simpa using head) more
  | _ => cases trivia

/-- Blanks and comments are passed over up to the next lexeme, whatever follows that. -/
theorem skip_trivia {trivia : List Lexeme} (all : trivia.all isTrivia = true)
    (chain : Chain (trivia ++ [x])) (after : Str) :
    skipSpaceAndComments (textOf trivia ++ (x.text ++ after)) =
      skipSpaceAndComments (x.text ++ after) := by
  induction trivia with
  | nil => rfl
  | cons y trivia ih =>
    simp only [all_cons, Bool.and_eq_true] at all
    have nonempty : x.text ≠ [] := (Chain.right chain.2).1.text_ne_nil
    have following : (textOf (trivia ++ [x])).head? = (textOf trivia ++ (x.text ++ after)).head? := by
      rw [← append_assoc, show textOf trivia ++ x.text = textOf (trivia ++ [x]) by simp,
        head?_append_of_ne_nil _ (by simp [nonempty])]
    have shape : Shape y (textOf trivia ++ (x.text ++ after)).head? :=
      following ▸ fits_iff_shape.mp chain.1
    rw [textOf_cons, append_assoc, skip_lexeme all.1 shape (by simp [nonempty]),
      ih all.2 chain.2]

end Skip

end Dbx.Guarantees.ScannedLexemes
