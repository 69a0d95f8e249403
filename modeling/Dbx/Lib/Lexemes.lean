import Dbx.Lib.Text

/-!
# The lexemes of SQLite

The text of a statement cut into blanks, comments, quoted tokens, words and single symbols
(`tokenize.c` of SQLite joins some symbols and words into one token, which needs no more than
their order). Nothing is dropped: the lexemes put together are the text. Where a lexeme ends
depends on the next character only (`Fits.of_head`), so parts of a text have the lexemes they
have in the text, and lexemes that fit each other can be put together (`lexemes_text`).
-/
namespace Dbx.Lib.Lexemes

open Dbx.Lib.Text List Option

inductive Lexeme where
  | space (c : Char)
  | comment (text : Str)
  /-- With its quotes. -/
  | quoted (text : Str)
  | word (text : Str)
  | symbol (c : Char)
  /-- A quote that is not closed. -/
  | unclosed (text : Str)
  deriving DecidableEq

def Lexeme.text : Lexeme → Str
  | space c | symbol c => [c]
  | comment t | quoted t | word t | unclosed t => t

def textOf (ls : List Lexeme) : Str := ls.flatMap Lexeme.text

@[simp] theorem textOf_nil : textOf [] = [] := rfl

@[simp] theorem textOf_cons (x : Lexeme) (ls : List Lexeme) :
    textOf (x :: ls) = x.text ++ textOf ls := rfl

@[simp] theorem textOf_append (as bs : List Lexeme) : textOf (as ++ bs) = textOf as ++ textOf bs :=
  flatMap_append

/-- The characters of names and keywords. -/
def isIdChar (c : Char) : Bool := c.isAlphanum || c == '_' || c == '$' || decide (128 ≤ c.toNat)

/-! ## Reading one lexeme -/

def withFront (front : Str) (found : Str × Str) : Str × Str := (front ++ found.1, found.2)

/-- The text up to a closing quote; a doubled quote does not close. -/
def closeQuote (q : Char) : Str → Option (Str × Str)
  | [] => none
  | [c] => if c = q then some ([c], []) else none
  | c :: d :: rest =>
    if c = q then
      if d = q then (closeQuote q rest).map (withFront [c, d]) else some ([c], d :: rest)
    else (closeQuote q (d :: rest)).map (withFront [c])

def closeBracket : Str → Option (Str × Str)
  | [] => none
  | c :: rest => if c = ']' then some ([c], rest) else (closeBracket rest).map (withFront [c])

/-- The text up to the end of a block comment, or all of it. -/
def closeBlock : Str → Str × Str
  | [] => ([], [])
  | [c] => ([c], [])
  | c :: d :: rest =>
    if c = '*' ∧ d = '/' then ([c, d], rest) else withFront [c] (closeBlock (d :: rest))

def isQuote (c : Char) : Bool := c == '\'' || c == '"' || c == '\x60'

/-- The first lexeme and what follows it. -/
def next (c : Char) (rest : Str) : Lexeme × Str :=
  if isAsciiWhitespace c then (.space c, rest)
  else if c = '-' ∧ rest.head? = some '-' then
    (.comment (c :: rest.takeWhile (· != '\n')), rest.dropWhile (· != '\n'))
  else if c = '/' ∧ rest.head? = some '*' then
    (.comment (c :: '*' :: (closeBlock rest.tail).1), (closeBlock rest.tail).2)
  else if isQuote c then
    match closeQuote c rest with
    | some (inner, after) => (.quoted (c :: inner), after)
    | none => (.unclosed (c :: rest), [])
  else if c = '[' then
    match closeBracket rest with
    | some (inner, after) => (.quoted (c :: inner), after)
    | none => (.unclosed (c :: rest), [])
  else if isIdChar c then (.word (c :: rest.takeWhile isIdChar), rest.dropWhile isIdChar)
  else (.symbol c, rest)

/-- The text ends with a quote that closes, and has no other. -/
inductive Closes (q : Char) : Str → Prop where
  | quote : Closes q [q]
  | doubled {t : Str} (rest : Closes q t) : Closes q (q :: q :: t)
  | other {c : Char} {t : Str} (different : c ≠ q) (rest : Closes q t) : Closes q (c :: t)

theorem Closes.ne_nil {q : Char} {t : Str} (closes : Closes q t) : t ≠ [] := by
  cases closes <;> simp

variable {inner : Str} {x : Lexeme} {as bs : List Lexeme}

attribute [local simp] Lexemes.closeQuote

theorem Closes.closeQuote {q : Char} {after : Str} (closes : Closes q inner)
    (single : after.head? ≠ some q) : closeQuote q (inner ++ after) = some (inner, after) := by
  induction closes with
  | quote =>
    cases after with
    | nil => simp
    | cons d after =>
      have different : d ≠ q := by simpa using single
      simp [different]
  | doubled _ ih => simp [ih, withFront]
  | @other c t different rest ih =>
    cases t with
    | nil => exact absurd rfl rest.ne_nil
    | cons d t =>
      rw [cons_append] at ih
      simp [different, ih, withFront]

theorem closes_of_closeQuote {q : Char} {text after : Str}
    (found : closeQuote q text = some (inner, after)) :
    inner ++ after = text ∧ Closes q inner ∧ after.head? ≠ some q := by
  induction text using closeQuote.induct q generalizing inner with
  | case1 => cases found
  | case2 =>
    simp only [closeQuote, if_true, some.injEq, Prod.mk.injEq] at found
    rw [← found.1, ← found.2]
    exact ⟨rfl, .quote, by simp⟩
  | case3 c different => simp [closeQuote, different] at found
  | case4 rest ih =>
    simp only [closeQuote, if_true, map_eq_some_iff] at found
    obtain ⟨⟨inner', after'⟩, read, same⟩ := found
    obtain ⟨rfl, rfl⟩ := same
    obtain ⟨whole, closes, single⟩ := ih read
    exact ⟨by simp [← whole], .doubled closes, single⟩
  | case5 d rest different =>
    simp only [closeQuote, if_true, different, if_false, some.injEq, Prod.mk.injEq] at found
    rw [← found.1, ← found.2]
    exact ⟨rfl, .quote, by simpa using different⟩
  | case6 c d rest different ih =>
    simp only [closeQuote, different, if_false, map_eq_some_iff] at found
    obtain ⟨⟨inner', after'⟩, read, same⟩ := found
    obtain ⟨rfl, rfl⟩ := same
    obtain ⟨whole, closes, single⟩ := ih read
    exact ⟨by simp [← whole], .other different closes, single⟩

theorem closeBracket_eq (noBracket : ']' ∉ inner) (after : Str) :
    closeBracket (inner ++ ']' :: after) = some (inner ++ [']'], after) := by
  induction inner with
  | nil => simp [closeBracket]
  | cons c inner ih =>
    rw [mem_cons, not_or] at noBracket
    simp [closeBracket, Ne.symm noBracket.1, ih noBracket.2, withFront]

theorem of_closeBracket {text after : Str} (found : closeBracket text = some (inner, after)) :
    ∃ name, ']' ∉ name ∧ inner = name ++ [']'] ∧ text = name ++ ']' :: after := by
  induction text generalizing inner with
  | nil => cases found
  | cons c rest ih =>
    unfold closeBracket at found
    split at found
    · rename_i isBracket
      simp only [some.injEq, Prod.mk.injEq] at found
      exact ⟨[], by simp, by simp [← found.1, isBracket], by simp [isBracket, found.2]⟩
    rename_i different
    obtain ⟨⟨inner', after'⟩, read, same⟩ := map_eq_some_iff.mp found
    obtain ⟨rfl, rfl⟩ := same
    obtain ⟨name, absent, rfl, rfl⟩ := ih read
    exact ⟨c :: name, by simp [absent, Ne.symm different], by simp, by simp⟩

/-- The text ends with the end of a block comment, and has no other. -/
inductive EndsBlock : Str → Prop where
  | close : EndsBlock ['*', '/']
  | step {c : Char} {t : Str} (goesOn : ¬(c = '*' ∧ t.head? = some '/')) (rest : EndsBlock t) :
    EndsBlock (c :: t)

theorem EndsBlock.closeBlock (ends : EndsBlock inner) (after : Str) :
    closeBlock (inner ++ after) = (inner, after) := by
  induction ends with
  | close => simp [Lexemes.closeBlock]
  | @step c t goesOn rest ih =>
    cases t with
    | nil => cases rest
    | cons d t =>
      have different : ¬(c = '*' ∧ d = '/') := by simpa using goesOn
      rw [cons_append] at ih
      simp [Lexemes.closeBlock, different, ih, withFront]

variable (text : Str)

theorem of_closeBlock : (closeBlock text).1 ++ (closeBlock text).2 = text ∧
    (EndsBlock (closeBlock text).1 ∨ (closeBlock text).2 = []) := by
  induction text using closeBlock.induct with
  | case1 | case2 => exact ⟨rfl, .inr rfl⟩
  | case3 c d rest closes =>
    simp only [closeBlock, closes, and_self, if_true]
    exact ⟨rfl, .inl .close⟩
  | case4 c d rest goesOn ih =>
    simp only [closeBlock, goesOn, if_false, withFront]
    refine ⟨by simp [ih.1], ih.2.imp (fun ends => .step ?_ ends) id⟩
    rintro ⟨star, slash⟩
    have whole := ih.1
    cases inner : (closeBlock (d :: rest)).1 with
    | nil => simp [inner] at slash
    | cons e inner' =>
      rw [inner] at slash whole
      have isSlash : e = '/' := by simpa using slash
      exact goesOn ⟨star, (cons.inj whole).1 ▸ isSlash⟩

attribute [local simp] Lexeme.text

theorem next_text (c : Char) (rest : Str) : (next c rest).1.text ++ (next c rest).2 = c :: rest := by
  unfold next
  split
  · rfl
  split
  · simp [takeWhile_append_dropWhile]
  split
  · rename_i block
    cases rest with
    | nil => simp at block
    | cons d rest =>
      have star : d = '*' := by simpa using block.2
      simp [(of_closeBlock rest).1, star]
  split
  · split
    · rename_i found
      simp [(closes_of_closeQuote found).1]
    · simp
  split
  · split
    · rename_i found
      obtain ⟨name, _, rfl, rfl⟩ := of_closeBracket found
      simp
    · simp
  split
  · simp [takeWhile_append_dropWhile]
  · rfl

theorem next_ne_nil (c : Char) (rest : Str) : (next c rest).1.text ≠ [] := by
  unfold next
  repeat' split
  all_goals simp

theorem next_length (c : Char) (rest : Str) : (next c rest).2.length ≤ rest.length := by
  have whole := congrArg length (next_text c rest)
  have some := length_pos_iff.mpr (next_ne_nil c rest)
  simp only [length_append, length_cons] at whole
  omega

/-! ## Reading a text -/

def lexemes (text : Str) : List Lexeme :=
  match text with
  | [] => []
  | c :: rest => (next c rest).1 :: lexemes (next c rest).2
termination_by text.length
decreasing_by exact Nat.lt_succ_of_le (next_length c rest)

@[simp] theorem lexemes_nil : lexemes [] = [] := by rw [lexemes]

theorem lexemes_cons (c : Char) (rest : Str) :
    lexemes (c :: rest) = (next c rest).1 :: lexemes (next c rest).2 := by rw [lexemes]

theorem textOf_lexemes : textOf (lexemes text) = text := by
  induction text using lexemes.induct with
  | case1 => simp
  | case2 c rest ih => rw [lexemes_cons, textOf_cons, ih, next_text]

/-- Before this text the lexeme is read as it is. -/
def Fits (x : Lexeme) (rest : Str) : Prop :=
  ∃ c tail, x.text ++ rest = c :: tail ∧ next c tail = (x, rest)

/-- Each lexeme fits what follows it. -/
def Chain : List Lexeme → Prop
  | [] => True
  | x :: ls => Fits x (textOf ls) ∧ Chain ls

theorem Fits.lexemes {rest : Str} (fits : Fits x rest) :
    lexemes (x.text ++ rest) = x :: lexemes rest := by
  obtain ⟨c, tail, same, read⟩ := fits
  rw [same, lexemes_cons, read]

theorem lexemes_text {ls : List Lexeme} (chain : Chain ls) : lexemes (textOf ls) = ls := by
  induction ls with
  | nil => simp
  | cons x ls ih => rw [textOf_cons, chain.1.lexemes, ih chain.2]

theorem chain_lexemes : Chain (lexemes text) := by
  induction text using lexemes.induct with
  | case1 =>
    rw [lexemes_nil]
    trivial
  | case2 c rest ih =>
    rw [lexemes_cons]
    refine ⟨⟨c, rest, ?_, ?_⟩, ih⟩
    · rw [textOf_lexemes, next_text]
    · rw [textOf_lexemes]

theorem Chain.right (chain : Chain (as ++ bs)) : Chain bs := by
  induction as with
  | nil => exact chain
  | cons x as ih => exact ih chain.2

/-! ## What a lexeme fits -/

section Fits

variable {c : Char} {t rest : Str}

theorem fits_space (blank : isAsciiWhitespace c = true) (rest : Str) : Fits (.space c) rest :=
  ⟨c, rest, rfl, by simp [next, blank]⟩

theorem takeWhile_append_stop {p : Char → Bool} (all : t.all p = true)
    (stop : ∀ d ∈ rest.head?, p d = false) :
    (t ++ rest).takeWhile p = t ∧ (t ++ rest).dropWhile p = rest := by
  have taken : (t ++ rest).takeWhile p = t := by
    rw [takeWhile_append_of_pos (all_eq_true.mp all)]
    cases rest with
    | nil => simp
    | cons d rest => simp [stop d rfl]
  have whole := takeWhile_append_dropWhile (p := p) (l := t ++ rest)
  rw [taken] at whole
  exact ⟨taken, append_cancel_left whole⟩

/-- The characters that start something else than a word or a symbol. -/
theorem quote_cases (quote : isQuote c = true) : (c = '\'' ∨ c = '"') ∨ c = '\x60' := by
  simpa [isQuote] using quote

theorem quote_plain (quote : isQuote c = true) :
    isAsciiWhitespace c = false ∧ c ≠ '-' ∧ c ≠ '/' := by
  obtain (rfl | rfl) | rfl := quote_cases quote <;> decide

def isOpening (c : Char) : Bool :=
  isAsciiWhitespace c || c == '-' || c == '/' || isQuote c || c == '['

theorem isIdChar_of_isOpening (opening : isOpening c = true) : isIdChar c = false := by
  simp only [isOpening, isAsciiWhitespace, isQuote, Bool.or_eq_true, beq_iff_eq] at opening
  obtain (((((((rfl | rfl) | rfl) | rfl) | rfl) | rfl) | rfl) | ((rfl | rfl) | rfl)) | rfl :=
    opening <;> decide

theorem next_of_not_opening (plain : isOpening c = false) : next c t =
    if isIdChar c then (.word (c :: t.takeWhile isIdChar), t.dropWhile isIdChar)
    else (.symbol c, t) := by
  simp only [isOpening, Bool.or_eq_false_iff, beq_eq_false_iff_ne] at plain
  obtain ⟨⟨⟨⟨blank, dash⟩, slash⟩, quote⟩, bracket⟩ := plain
  simp [next, blank, dash, slash, quote, bracket]

/-- A word ends where no character of words follows. -/
theorem fits_word (nonempty : t ≠ []) (all : t.all isIdChar = true)
    (stop : ∀ d ∈ rest.head?, isIdChar d = false) : Fits (.word t) rest := by
  cases t with
  | nil => exact absurd rfl nonempty
  | cons c t =>
    simp only [all_cons, Bool.and_eq_true] at all
    obtain ⟨taken, dropped⟩ := takeWhile_append_stop all.2 stop
    have plain : isOpening c = false := by
      by_contra opening
      have noWord := isIdChar_of_isOpening (by simpa using opening)
      exact absurd all.1 (by simp [noWord])
    refine ⟨c, t ++ rest, rfl, ?_⟩
    rw [next_of_not_opening plain, if_pos all.1, taken, dropped]

theorem fits_symbol (plain : isOpening c = false) (noWord : isIdChar c = false) (rest : Str) :
    Fits (.symbol c) rest :=
  ⟨c, rest, rfl, by rw [next_of_not_opening plain, noWord]; rfl⟩

/-- What a lexeme is like, and what may follow it. -/
inductive Shape : Lexeme → Option Char → Prop where
  | space {c : Char} {o : Option Char} (blank : isAsciiWhitespace c = true) : Shape (.space c) o
  | line {t : Str} {o : Option Char} (noBreak : '\n' ∉ t) (ends : ∀ d ∈ o, d = '\n') :
    Shape (.comment ('-' :: '-' :: t)) o
  | block {t : Str} {o : Option Char} (ends : EndsBlock t) : Shape (.comment ('/' :: '*' :: t)) o
  | openBlock {t : Str} (unfinished : closeBlock t = (t, [])) :
    Shape (.comment ('/' :: '*' :: t)) none
  | quoted {q : Char} {t : Str} {o : Option Char} (quote : isQuote q = true) (closes : Closes q t)
      (single : o ≠ some q) : Shape (.quoted (q :: t)) o
  | bracket {t : Str} {o : Option Char} (name : ']' ∉ t) : Shape (.quoted ('[' :: (t ++ [']']))) o
  | word {t : Str} {o : Option Char} (nonempty : t ≠ []) (all : t.all isIdChar = true)
      (stop : ∀ d ∈ o, isIdChar d = false) : Shape (.word t) o
  | symbol {c : Char} {o : Option Char} (noWord : isIdChar c = false) (plain : isOpening c = false) :
    Shape (.symbol c) o
  | dash {o : Option Char} (single : o ≠ some '-') : Shape (.symbol '-') o
  | slash {o : Option Char} (single : o ≠ some '*') : Shape (.symbol '/') o
  | openQuote {q : Char} {t : Str} (quote : isQuote q = true) (unfinished : closeQuote q t = none) :
    Shape (.unclosed (q :: t)) none
  | openBracket {t : Str} (unfinished : closeBracket t = none) : Shape (.unclosed ('[' :: t)) none

theorem head?_dropWhile_stop (p : Char → Bool) (t : Str) :
    ∀ d ∈ (t.dropWhile p).head?, p d = false := by
  intro d head
  have some := head?_dropWhile_not p t
  rw [mem_def.mp head] at some
  simpa using some

theorem shape_of_next (c : Char) (t : Str) : Shape (next c t).1 (next c t).2.head? := by
  unfold next
  split
  · rename_i blank
    exact .space blank
  split
  · rename_i line
    cases t with
    | nil => simp at line
    | cons d t =>
      have dash : d = '-' := by simpa using line.2
      rw [line.1, dash]
      have ends := head?_dropWhile_stop (· != '\n') ('-' :: t)
      refine .line ?_ fun e head => by simpa using ends e head
      intro member
      simpa using mem_takeWhile_imp member
  split
  · rename_i block
    rw [block.1]
    obtain ⟨whole, ends | open'⟩ := of_closeBlock t.tail
    · exact .block ends
    rw [open', append_nil] at whole
    rw [open']
    apply Shape.openBlock
    rw [whole]
    exact Prod.ext whole open'
  split
  · rename_i quote
    split
    · rename_i inner after found
      obtain ⟨_, closes, single⟩ := closes_of_closeQuote found
      exact .quoted quote closes single
    · rename_i unfinished
      exact .openQuote quote unfinished
  split
  · rename_i bracket
    subst bracket
    split
    · rename_i inner after found
      obtain ⟨name, absent, rfl, rfl⟩ := of_closeBracket found
      exact .bracket absent
    · rename_i unfinished
      exact .openBracket unfinished
  split
  · rename_i noBracket word
    apply Shape.word
    · simp
    · simp [word]
    · exact head?_dropWhile_stop isIdChar t
  · rename_i blank dash slash quote bracket noWord
    have noWord : isIdChar c = false := by simpa using noWord
    by_cases isDash : c = '-'
    · rw [isDash] at dash ⊢
      exact .dash fun head => dash ⟨rfl, head⟩
    by_cases isSlash : c = '/'
    · rw [isSlash] at slash ⊢
      exact .slash fun head => slash ⟨rfl, head⟩
    · apply Shape.symbol noWord
      simp [isOpening, blank, isDash, isSlash, quote, bracket]

theorem next_of_quote {q : Char} (quote : isQuote q = true) : next q t = match closeQuote q t with
    | some (inner, after) => (.quoted (q :: inner), after)
    | none => (.unclosed (q :: t), []) := by
  have plain := quote_plain quote
  simp [next, plain.1, plain.2.1, plain.2.2, quote]

attribute [local simp] isAsciiWhitespace

theorem fits_of_shape (shape : Shape x rest.head?) : Fits x rest := by
  generalize head : rest.head? = o at shape
  cases shape with
  | space blank => exact fits_space blank rest
  | @line t _ noBreak ends =>
    have stop : ∀ d ∈ rest.head?, (d != '\n') = false := by
      intro d member
      rw [head] at member
      simp [ends d member]
    have all : (('-' : Char) :: t).all (· != '\n') = true := by
      rw [List.all_eq_true]
      intro d member
      have different : d ≠ '\n' := by
        rintro rfl
        exact noBreak ((mem_cons.mp member).resolve_left (by decide))
      simpa using different
    obtain ⟨taken, dropped⟩ := takeWhile_append_stop all stop
    refine ⟨'-', '-' :: t ++ rest, rfl, ?_⟩
    simp only [next, cons_append, head?_cons, and_self, if_true] at taken dropped ⊢
    rw [taken, dropped]
    rfl
  | block ends =>
    refine ⟨'/', _, rfl, ?_⟩
    simp [next, ends.closeBlock]
  | openBlock unfinished =>
    have empty : rest = [] := by simpa using head
    rw [empty]
    refine ⟨'/', _, rfl, ?_⟩
    simp [next, unfinished]
  | @quoted q t _ quote closes single =>
    refine ⟨q, t ++ rest, rfl, ?_⟩
    rw [← head] at single
    simp [next_of_quote quote, closes.closeQuote single]
  | @bracket t _ name =>
    refine ⟨'[', _, rfl, ?_⟩
    have read := closeBracket_eq name rest
    simp [next, isQuote, read]
  | word nonempty all stop => exact fits_word nonempty all (head ▸ stop)
  | symbol noWord plain => exact fits_symbol plain noWord rest
  | dash single =>
    refine ⟨'-', rest, rfl, ?_⟩
    rw [← head] at single
    simp [next, isQuote, single, show isIdChar '-' = false by decide]
  | slash single =>
    refine ⟨'/', rest, rfl, ?_⟩
    rw [← head] at single
    simp [next, isQuote, single, show isIdChar '/' = false by decide]
  | @openQuote q t quote unfinished =>
    have empty : rest = [] := by simpa using head
    rw [empty]
    exact ⟨q, t, by simp, by simp [next_of_quote quote, unfinished]⟩
  | @openBracket t unfinished =>
    have empty : rest = [] := by simpa using head
    rw [empty]
    exact ⟨'[', t, by simp, by simp [next, isQuote, unfinished]⟩

theorem fits_iff_shape : Fits x rest ↔ Shape x rest.head? := by
  constructor
  · rintro ⟨c, t, _, read⟩
    have shape := shape_of_next c t
    rwa [read] at shape
  · exact fits_of_shape

/-- A lexeme fits the end of the text. -/
theorem Shape.last {o : Option Char} (shape : Shape x o) : Shape x none := by
  cases shape with
  | space blank => exact .space blank
  | line noBreak _ => exact .line noBreak (by simp)
  | block ends => exact .block ends
  | openBlock unfinished => exact .openBlock unfinished
  | quoted quote closes _ => exact .quoted quote closes (by simp)
  | bracket name => exact .bracket name
  | word nonempty all _ => exact .word nonempty all (by simp)
  | symbol noWord plain => exact .symbol noWord plain
  | dash _ => exact .dash (by simp)
  | slash _ => exact .slash (by simp)
  | openQuote quote unfinished => exact .openQuote quote unfinished
  | openBracket unfinished => exact .openBracket unfinished

end Fits

/-! ## Chains -/

theorem Fits.text_ne_nil {rest : Str} (fits : Fits x rest) : x.text ≠ [] := by
  obtain ⟨c, t, same, read⟩ := fits
  have some := next_ne_nil c t
  rwa [read] at some

/-- The next character is the first of the next lexeme. -/
theorem head?_textOf_cons {y : Lexeme} {ls : List Lexeme} (chain : Chain (y :: ls)) :
    (textOf (y :: ls)).head? = y.text.head? := by
  rw [textOf_cons, head?_append_of_ne_nil _ chain.1.text_ne_nil]

theorem Chain.append (left : Chain as) (right : Chain bs)
    (joint : ∀ x ∈ as.getLast?, Shape x (textOf bs).head?) : Chain (as ++ bs) := by
  induction as with
  | nil => exact right
  | cons x as ih =>
    cases as with
    | nil => exact ⟨fits_of_shape (joint x rfl), right⟩
    | cons y as =>
      have rest : Chain (y :: (as ++ bs)) := ih left.2 (by simpa using joint)
      refine ⟨?_, rest⟩
      have fits := fits_iff_shape.mp left.1
      rw [head?_textOf_cons left.2, ← head?_textOf_cons rest] at fits
      exact fits_of_shape fits

theorem Chain.left (chain : Chain (as ++ bs)) : Chain as := by
  induction as with
  | nil => trivial
  | cons x as ih =>
    have rest := ih chain.2
    refine ⟨fits_of_shape ?_, rest⟩
    have shape := fits_iff_shape.mp chain.1
    cases as with
    | nil => exact shape.last
    | cons y as =>
      have following : Chain (y :: (as ++ bs)) := chain.2
      rw [head?_textOf_cons rest, ← head?_textOf_cons following]
      exact shape

/-- What follows the last lexeme of a part. -/
theorem Chain.joint (chain : Chain (as ++ bs)) : ∀ x ∈ as.getLast?, Shape x (textOf bs).head? := by
  induction as with
  | nil => simp
  | cons x as ih =>
    cases as with
    | nil =>
      intro y last
      cases last
      exact fits_iff_shape.mp chain.1
    | cons y as =>
      intro z last
      exact ih chain.2 z (by simpa using last)

/-- A lexeme of a part that something follows. -/
theorem Chain.shape_of_mem (chain : Chain (as ++ bs)) (more : textOf bs ≠ []) (member : x ∈ as) :
    ∃ c, Shape x (some c) := by
  obtain ⟨front, back, rfl⟩ := append_of_mem member
  have split : Chain ((front ++ [x]) ++ (back ++ bs)) := by simpa using chain
  have shape := split.joint x (by simp)
  cases following : textOf (back ++ bs) with
  | nil => simp_all
  | cons c t => exact ⟨c, by simpa [following] using shape⟩

end Dbx.Lib.Lexemes
