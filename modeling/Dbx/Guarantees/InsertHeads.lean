import Dbx.Source.InsertBatches

/-!
# The part of an INSERT before its rows

How a server reads the text before the keyword VALUES, for texts of names, quoted names,
dots, commas and brackets (`readHead`): the tokens, and the text behind the keyword. On
these texts the scanner of the import finds the same keyword (`findTopLevelValuesKeyword_eq`),
and the key under which statements are joined determines the tokens up to the case of
the letters outside quotes (`lowerTokens_of_key_eq`).
-/
namespace Dbx.Guarantees.InsertHeads

open Dbx.Source Dbx.Lib.Text List Option
open Bool (and_eq_true or_eq_true)

/-! ## Tokens -/

inductive HeadToken where
  | word (text : Str)
  | name (quote : Char) (text : Str)
  | symbol (c : Char)
  deriving DecidableEq, Repr

def HeadToken.lower : HeadToken → HeadToken
  | word text => word (text.map Char.toLower)
  | other => other

inductive HeadMode where
  | code (word : Str)
  /-- Inside quotes; a second quote may follow the one that was read last. -/
  | name (quote : Char) (text : Str) (closed : Bool)
  deriving DecidableEq, Repr

structure HeadState where
  mode : HeadMode := .code []
  depth : Nat := 0
  tokens : List HeadToken := []
  deriving DecidableEq, Repr

/-- The blanks of SQL. -/
def isSqlBlank (c : Char) : Bool := 9 ≤ c.toNat && c.toNat ≤ 13 || c == ' '

def isPlainWordChar (c : Char) : Bool := c.isAlphanum || c == '_'

def isValuesWord (word : Str) : Bool :=
  word.map Char.toLower == "values".toList || word.map Char.toLower == "value".toList

namespace HeadState

/-- The state with the token finished that was read last. -/
def flush (s : HeadState) : HeadState :=
  match s.mode with
  | .code [] => s
  | .code word => { s with mode := .code [], tokens := s.tokens ++ [.word word] }
  | .name quote text _ => { s with mode := .code [], tokens := s.tokens ++ [.name quote text] }

/-- A character that is not part of a word or a quoted name. -/
def punctuate (s : HeadState) (ch : Char) : Option HeadState :=
  if isSqlBlank ch then some s
  else if ch == '(' then some { s with depth := s.depth + 1, tokens := s.tokens ++ [.symbol ch] }
  else if ch == ')' then some { s with depth := s.depth - 1, tokens := s.tokens ++ [.symbol ch] }
  else if ch == '.' || ch == ',' then some { s with tokens := s.tokens ++ [.symbol ch] }
  else if ch == '"' || ch == '\x60' then some { s with mode := .name ch [] false }
  else none

def step (s : HeadState) (ch : Char) : Option HeadState :=
  match s.mode with
  | .name quote text false =>
    if ch == quote then some { s with mode := .name quote text true }
    else if ch == '\\' then none
    else some { s with mode := .name quote (text ++ [ch]) false }
  | .name quote text true =>
    if ch == quote then some { s with mode := .name quote (text ++ [ch]) false }
    else if isPlainWordChar ch then some { s.flush with mode := .code [ch] }
    else s.flush.punctuate ch
  | .code word =>
    if isPlainWordChar ch then some { s with mode := .code (word ++ [ch]) }
    else s.flush.punctuate ch

/-- A word may start here. -/
def startsWord (s : HeadState) : Bool :=
  match s.mode with
  | .code word => word.isEmpty
  | .name _ _ closed => closed

/-- The text behind the keyword, if it stands here. -/
def valuesAhead (s : HeadState) (text : Str) : Option Str :=
  let word := text.takeWhile isSqlIdentChar
  if s.startsWord && s.depth == 0 && isValuesWord word then some (text.drop word.length) else none

def run (s : HeadState) : Str → Option HeadState
  | [] => some s
  | ch :: rest => (s.step ch).bind fun next => next.run rest

end HeadState

/-- The tokens before the keyword and the text behind it. -/
def readHead (s : HeadState) : Str → Option (List HeadToken × Str)
  | [] => none
  | ch :: rest =>
    match s.valuesAhead (ch :: rest) with
    | some after => some (s.flush.tokens, after)
    | none => (s.step ch).bind fun next => readHead next rest

example : readHead {} "INSERT INTO \x60db\x60.t(a, b)values (1)".toList =
    some ([.word "INSERT".toList, .word "INTO".toList, .name '\x60' "db".toList, .symbol '.',
      .word "t".toList, .symbol '(', .word "a".toList, .symbol ',', .word "b".toList, .symbol ')'],
      " (1)".toList) := by decide

/-! ## The scanner on these texts -/

variable {s next last : HeadState} {ch c : Char} {previous : Option Char}
  {before rest text front back : Str} {tokens : List HeadToken}

namespace HeadState

/-- The state is inside a name in these quotes. -/
def inside (s : HeadState) (quote : Char) : Bool :=
  match s.mode with
  | .name q _ false => q == quote
  | _ => false

/-- The scanner in this state. -/
def scanner (s : HeadState) (previous : Option Char) : SqlScanner :=
  { inDoubleQuote := s.inside '"', inBacktick := s.inside '\x60', previous }

/-- Names are quoted by quotes of names. -/
def Named (s : HeadState) : Prop :=
  ∀ quote text closed, s.mode = .name quote text closed → quote = '"' ∨ quote = '\x60'

/-- The depth behind a symbol. -/
def depthAfter (depth : Nat) (ch : Char) : Nat :=
  if ch == '(' then depth + 1 else if ch == ')' then depth - 1 else depth

theorem flush_mode (s : HeadState) : s.flush.mode = .code [] := by
  unfold flush
  split
  · assumption
  · rfl
  · rfl

theorem flush_depth (s : HeadState) : s.flush.depth = s.depth := by
  unfold flush
  split <;> rfl

theorem flush_flush (s : HeadState) : s.flush.flush = s.flush := by
  have mode := s.flush_mode
  rw [flush.eq_def s.flush, mode]

/-- What a character can do outside a name. -/
theorem punctuate_cases (h : s.punctuate ch = some next) : (isSqlBlank ch = true ∧ next = s) ∨
      (ch ∈ ['(', ')', '.', ','] ∧ next =
        { s with depth := depthAfter s.depth ch, tokens := s.tokens ++ [.symbol ch] }) ∨
      ((ch = '"' ∨ ch = '\x60') ∧ next = { s with mode := .name ch [] false }) := by
  unfold punctuate at h
  repeat' split at h
  all_goals cases h
  all_goals simp_all [depthAfter]

/-- What a character can do. -/
inductive Steps (s : HeadState) (ch : Char) (next : HeadState) : Prop where
  | closes {quote : Char} {text : Str} (mode : s.mode = .name quote text false) (same : ch = quote)
      (eq : next = { s with mode := .name quote text true })
  | inside {quote : Char} {text : Str} (mode : s.mode = .name quote text false)
      (other : ch ≠ quote) (plain : ch ≠ '\\')
      (eq : next = { s with mode := .name quote (text ++ [ch]) false })
  | reopens {quote : Char} {text : Str} (mode : s.mode = .name quote text true) (same : ch = quote)
      (eq : next = { s with mode := .name quote (text ++ [ch]) false })
  | word {letters : Str} (mode : s.mode = .code letters) (plain : isPlainWordChar ch = true)
      (eq : next = { s with mode := .code (letters ++ [ch]) })
  | begins {quote : Char} {text : Str} (mode : s.mode = .name quote text true)
      (plain : isPlainWordChar ch = true) (eq : next = { s.flush with mode := .code [ch] })
  | punctuates (outside : ∀ quote text, s.mode ≠ .name quote text false)
      (differs : ∀ quote text, s.mode = .name quote text true → ch ≠ quote)
      (notWord : isPlainWordChar ch = false) (eq : s.flush.punctuate ch = some next)

theorem steps_of_step (h : s.step ch = some next) : Steps s ch next := by
  unfold step at h
  cases mode : s.mode with
  | code letters =>
    simp only [mode] at h
    split at h
    · cases h
      exact .word mode ‹_› rfl
    · exact .punctuates (by simp [mode]) (by simp [mode]) (Bool.eq_false_iff.mpr ‹_›) h
  | name quote text closed =>
    cases closed with
    | false =>
      simp only [mode, beq_iff_eq] at h
      split at h
      · cases h
        exact .closes mode ‹_› rfl
      split at h
      · cases h
      · cases h
        exact .inside mode ‹_› ‹_› rfl
    | true =>
      simp only [mode, beq_iff_eq] at h
      split at h
      · cases h
        exact .reopens mode ‹_› rfl
      split at h
      · cases h
        exact .begins mode ‹_› rfl
      refine .punctuates (by simp [mode]) ?_ (Bool.eq_false_iff.mpr ‹_›) h
      intro quote' text' same
      rw [mode] at same
      cases same
      assumption

theorem Named.step (named : s.Named) (h : s.step ch = some next) : next.Named := by
  intro quote text closed mode
  cases steps_of_step h with
  | closes before _ eq | inside before _ _ eq | reopens before _ eq =>
    subst eq
    cases mode
    exact named _ _ _ before
  | word _ _ eq | begins _ _ eq =>
    subst eq
    cases mode
  | punctuates _ _ _ eq =>
    rcases punctuate_cases eq with ⟨_, rfl⟩ | ⟨_, rfl⟩ | ⟨quotes, rfl⟩
    · cases s.flush_mode.symm.trans mode
    · cases s.flush_mode.symm.trans mode
    · cases mode
      exact quotes

attribute [local simp] SqlScanner.toggleQuote SqlScanner.openMask SqlScanner.step

/-- Outside names the scanner leaves a character alone that opens nothing. -/
theorem scanner_plain (rest : Str) (plain : ch ∉ ['-', '/', '$', '\'', '"', '\x60']) :
    ({ previous } : SqlScanner).step ch rest = { previous := some ch } := by
  simp only [mem_cons, not_mem_nil, or_false, not_or] at plain
  obtain ⟨dash, slash, dollar, single, double, back⟩ := plain
  have noTag : dollarQuoteTagAtStr (ch :: rest) = none := by
    unfold dollarQuoteTagAtStr
    split
    · rename_i same
      exact absurd (List.cons.inj same).1 dollar
    · rfl
  simp [dash, slash, single, double, back, noTag]

theorem not_special_of_plain
    (plain : isPlainWordChar ch = true ∨ isSqlBlank ch = true ∨ ch ∈ ['(', ')', '.', ',']) :
    ch ∉ ['-', '/', '$', '\'', '"', '\x60'] ∧ ch ≠ '\\' := by
  constructor
  · intro special
    simp only [mem_cons, not_mem_nil, or_false] at special
    rcases special with rfl | rfl | rfl | rfl | rfl | rfl
    all_goals
      revert plain
      decide
  · rintro rfl
    revert plain
    decide

attribute [local simp] HeadState.inside

/-- The scanner follows the reading of the head. -/
theorem scanner_step (named : s.Named) (h : s.step ch = some next)
    (unescaped : previous ≠ some '\\') (rest : Str) :
    (s.scanner previous).step ch rest = next.scanner (some ch) ∧ ch ≠ '\\' := by
  -- Outside names: a plain character, or a quote that opens a name.
  have plainly : ∀ {next : HeadState}, (∀ quote, s.inside quote = false) →
      (∀ quote, next.inside quote = false) →
      (isPlainWordChar ch = true ∨ isSqlBlank ch = true ∨ ch ∈ ['(', ')', '.', ',']) →
      (s.scanner previous).step ch rest = next.scanner (some ch) ∧ ch ≠ '\\' := by
    intro next outside outside' plain
    obtain ⟨ordinary, unescaping⟩ := not_special_of_plain plain
    rw [scanner, scanner, outside, outside, outside', outside']
    exact ⟨scanner_plain rest ordinary, unescaping⟩
  have opening : ∀ {next : HeadState} {text : Str}, (∀ quote, s.inside quote = false) →
      next.mode = .name ch text false → (ch = '"' ∨ ch = '\x60') →
      (s.scanner previous).step ch rest = next.scanner (some ch) ∧ ch ≠ '\\' := by
    intro next text outside mode quotes
    rw [scanner, outside, outside]
    rcases quotes with rfl | rfl
    all_goals
      simp [scanner, inside, mode, unescaped, dollarQuoteTagAtStr]
  cases steps_of_step h with
  | closes mode same eq =>
    subst eq same
    rcases named _ _ _ mode with rfl | rfl
    all_goals
      simp [scanner, inside, mode, unescaped]
  | inside mode other plain eq =>
    subst eq
    refine ⟨?_, plain⟩
    rcases named _ _ _ mode with rfl | rfl
    all_goals
      simp [scanner, mode, other]
  | reopens mode same eq =>
    subst eq same
    exact opening (by simp [mode]) rfl (named _ _ _ mode)
  | word mode plain eq | begins mode plain eq =>
    subst eq
    exact plainly (by simp [mode]) (by simp) (.inl plain)
  | punctuates outside _ notWord eq =>
    have notInside : ∀ quote, s.inside quote = false := by
      intro quote
      unfold HeadState.inside
      split
      · rename_i mode
        exact absurd mode (outside _ _)
      · rfl
    have flushed : ∀ quote, s.flush.inside quote = false := by
      simp [flush_mode]
    rcases punctuate_cases eq with ⟨blank, rfl⟩ | ⟨mark, rfl⟩ | ⟨quotes, rfl⟩
    · exact plainly notInside flushed (.inr (.inl blank))
    · exact plainly notInside flushed (.inr (.inr mark))
    · exact opening notInside rfl quotes

theorem isMasked_scanner (s : HeadState) (previous : Option Char) :
    (s.scanner previous).isMasked = (s.inside '"' || s.inside '\x60') := by
  simp [SqlScanner.isMasked, scanner]

theorem depthAfter_other {depth : Nat}
    (other : isPlainWordChar ch = true ∨ isSqlBlank ch = true ∨ ch = '"' ∨ ch = '\x60') :
    depthAfter depth ch = depth := by
  have notOpen : ch ≠ '(' := by
    rintro rfl
    revert other
    decide
  have notClose : ch ≠ ')' := by
    rintro rfl
    revert other
    decide
  simp [depthAfter, notOpen, notClose]

/-- The depth follows the brackets that the scanner does not mask. -/
theorem step_depth (named : s.Named) (h : s.step ch = some next) : next.depth =
      if next.inside '"' || next.inside '\x60' then s.depth else depthAfter s.depth ch := by
  cases steps_of_step h with
  | closes mode same eq =>
    subst eq same
    simp [depthAfter_other (.inr (.inr (named _ _ _ mode)))]
  | inside mode other plain eq | reopens mode same eq =>
    subst eq
    have quotes := named _ _ _ mode
    rcases quotes with rfl | rfl
    all_goals simp
  | word mode plain eq =>
    subst eq
    simp [depthAfter_other (.inl plain)]
  | begins mode plain eq =>
    subst eq
    simp [depthAfter_other (.inl plain), flush_depth]
  | punctuates outside _ notWord eq =>
    rcases punctuate_cases eq with ⟨blank, rfl⟩ | ⟨_, rfl⟩ | ⟨quotes, rfl⟩
    · simp [flush_mode, flush_depth, depthAfter_other (.inr (.inl blank))]
    · simp [flush_mode, flush_depth]
    · rw [if_pos, flush_depth]
      rcases quotes with rfl | rfl
      all_goals simp

end HeadState

open HeadState

/-! ## The keyword -/

theorem isSqlIdentChar_toLower (c : Char) : isSqlIdentChar c.toLower = isSqlIdentChar c :=
  toLower_congr (by decide) c

/-- No letter follows a word. -/
theorem boundary_dropWhile (text : Str) :
    (text.dropWhile isSqlIdentChar).head?.all (fun ch => !isSqlIdentChar ch) = true := by
  cases rest : text.dropWhile isSqlIdentChar with
  | nil => rfl
  | cons c rest => simp [of_dropWhile_cons rest]

/-- A keyword stands here if it is the word that starts here. -/
theorem keywordAt_eq {keyword : String} (letters : keyword.toList.all isSqlIdentChar = true)
    (before text : Str) :
    keywordAt before text keyword =
      (before.getLast?.all (fun ch => !isSqlIdentChar ch) &&
        (text.takeWhile isSqlIdentChar).map Char.toLower == keyword.toList.map Char.toLower) := by
  rw [Bool.eq_iff_iff]
  simp only [keywordAt, eqIgnoreAsciiCase, and_eq_true, beq_iff_eq]
  have length : keyword.toList.length = keyword.length := rfl
  constructor
  · rintro ⟨⟨same, boundary⟩, next⟩
    refine ⟨boundary, ?_⟩
    have all : (text.take keyword.length).takeWhile isSqlIdentChar = text.take keyword.length := by
      rw [takeWhile_eq_self_iff]
      intro c member
      rw [← isSqlIdentChar_toLower]
      have lowered : c.toLower ∈ keyword.toList.map Char.toLower := by
        rw [← same]
        exact mem_map_of_mem member
      obtain ⟨d, inKeyword, lower⟩ := mem_map.mp lowered
      rw [← lower, isSqlIdentChar_toLower]
      exact all_eq_true.mp letters d inKeyword
    have none : (text.drop keyword.length).takeWhile isSqlIdentChar = [] := by
      cases rest : text.drop keyword.length with
      | nil => rfl
      | cons c rest =>
        rw [rest] at next
        simp only [head?_cons, all_some, Bool.not_eq_true'] at next
        rw [takeWhile_cons, next]
        rfl
    have word : text.takeWhile isSqlIdentChar = text.take keyword.length := by
      conv_lhs => rw [← take_append_drop keyword.length text]
      rw [takeWhile_append, all, if_pos rfl, none, append_nil]
    rw [word, same]
  · rintro ⟨boundary, same⟩
    have long : (text.takeWhile isSqlIdentChar).length = keyword.length := by
      have := congrArg List.length same
      rw [length_map, length_map, length] at this
      exact this
    have cut := takeWhile_append_dropWhile (p := isSqlIdentChar) (l := text)
    have front : text.take keyword.length = text.takeWhile isSqlIdentChar := by
      conv_lhs => rw [← cut]
      rw [take_left' long]
    have back : text.drop keyword.length = text.dropWhile isSqlIdentChar := by
      conv_lhs => rw [← cut]
      rw [drop_left' long]
    refine ⟨⟨by rw [front, same], boundary⟩, ?_⟩
    rw [back, boundary_dropWhile]

theorem afterValuesKeyword_eq (before text : Str) : afterValuesKeyword before text =
      if before.getLast?.all (fun ch => !isSqlIdentChar ch) &&
          isValuesWord (text.takeWhile isSqlIdentChar) then
        some (text.drop (text.takeWhile isSqlIdentChar).length)
      else none := by
  have lower : "values".toList.map Char.toLower = "values".toList := by decide
  have lower' : "value".toList.map Char.toLower = "value".toList := by decide
  unfold afterValuesKeyword
  rw [find?_cons, find?_cons, keywordAt_eq (by decide), keywordAt_eq (by decide), lower,
    lower', isValuesWord, ← length_map Char.toLower]
  generalize (text.takeWhile isSqlIdentChar).map Char.toLower = word
  cases before.getLast?.all fun ch => !isSqlIdentChar ch with
  | false => rfl
  | true =>
    cases first : word == "values".toList with
    | true =>
      rw [beq_iff_eq.mp first]
      rfl
    | false =>
      cases second : word == "value".toList with
      | true =>
        rw [beq_iff_eq.mp second]
        rfl
      | false => rfl

/-! ## The scanner finds the keyword -/

/-- Outside names, a word may start exactly if the character before is not one of a word. -/
def Linked (s : HeadState) (before : Str) : Prop :=
  (∀ quote text, s.mode ≠ .name quote text false) →
    s.startsWord = before.getLast?.all fun ch => !isSqlIdentChar ch

theorem isSqlIdentChar_of_plain (plain : isPlainWordChar c = true) : isSqlIdentChar c = true := by
  simp only [isPlainWordChar, or_eq_true] at plain
  simp only [isSqlIdentChar, or_eq_true]
  tauto

theorem isSqlIdentChar_lt (ident : isSqlIdentChar c = true) : c.toNat < 128 := by
  simp only [isSqlIdentChar, or_eq_true, beq_iff_eq] at ident
  rcases ident with (rfl | rfl) | letter
  · decide
  · decide
  · exact isAlphanum_lt letter

theorem not_isSqlIdentChar_of_whitespace (blank : isWhitespace c = true) :
    isSqlIdentChar c = false :=
  Bool.eq_false_iff.mpr fun ident =>
    forall_char_lt (P := fun c => isSqlIdentChar c = true → isWhitespace c ≠ true) (by decide) c
      (isSqlIdentChar_lt ident) ident blank

theorem isSqlBlank_lt (blank : isSqlBlank c = true) : c.toNat < 128 := by
  simp only [isSqlBlank, or_eq_true, and_eq_true, decide_eq_true_eq, beq_iff_eq] at blank
  rcases blank with range | rfl
  · omega
  · decide

theorem isWhitespace_of_sqlBlank (blank : isSqlBlank c = true) : isWhitespace c = true :=
  forall_char_lt (P := fun c => isSqlBlank c = true → isWhitespace c = true) (by decide) c
    (isSqlBlank_lt blank) blank

/-- The characters between words that are not blank. -/
abbrev IsMark (c : Char) : Prop := c ∈ ['(', ')', '.', ','] ∨ c = '"' ∨ c = '\x60'

theorem IsMark.cases {P : Char → Prop} (mark : IsMark c)
    (all : P '(' ∧ P ')' ∧ P '.' ∧ P ',' ∧ P '"' ∧ P '\x60') : P c := by
  unfold IsMark at mark
  grind

theorem not_isSqlIdentChar (other : isSqlBlank c = true ∨ IsMark c) : isSqlIdentChar c = false := by
  obtain blank | mark := other
  · exact not_isSqlIdentChar_of_whitespace (isWhitespace_of_sqlBlank blank)
  · exact mark.cases (P := (isSqlIdentChar · = false)) (by decide)

theorem Linked.step (named : s.Named) (h : s.step ch = some next) :
    Linked next (before ++ [ch]) := by
  intro outside
  rw [getLast?_concat, all_some]
  cases steps_of_step h with
  | closes mode same eq =>
    subst eq same
    have quotes := named _ _ _ mode
    rw [not_isSqlIdentChar (.inr (.inr quotes))]
    rfl
  | inside mode other plain eq | reopens mode same eq =>
    subst eq
    exact absurd rfl (outside _ _)
  | word mode plain eq =>
    subst eq
    rw [isSqlIdentChar_of_plain plain]
    simp [startsWord]
  | begins mode plain eq =>
    subst eq
    rw [isSqlIdentChar_of_plain plain]
    rfl
  | punctuates _ _ _ eq =>
    have flushed : s.flush.startsWord = true := by
      rw [startsWord, flush_mode]
      rfl
    rcases punctuate_cases eq with ⟨blank, rfl⟩ | ⟨mark, rfl⟩ | ⟨quotes, rfl⟩
    · rw [not_isSqlIdentChar (.inl blank), flushed]
      rfl
    · rw [not_isSqlIdentChar (.inr (.inl mark))]
      exact flushed
    · exact absurd rfl (outside _ _)

/-- The head up to the keyword. -/
structure HeadBefore (s : HeadState) (text : Str) (tokens : List HeadToken) (front word rest : Str) :
    Prop where
  text_eq : text = front ++ (word ++ rest)
  keyword : isValuesWord word = true
  boundary : rest.head?.all (fun ch => !isSqlIdentChar ch) = true
  run : ∃ last, s.run front = some last ∧ last.startsWord = true ∧ last.depth = 0 ∧
    last.flush.tokens = tokens

theorem valuesAhead_eq_some (h : s.valuesAhead text = some rest) :
    s.startsWord = true ∧ s.depth = 0 ∧ isValuesWord (text.takeWhile isSqlIdentChar) = true ∧
      rest = text.drop (text.takeWhile isSqlIdentChar).length := by
  unfold valuesAhead at h
  dsimp only at h
  split at h
  · rename_i conditions
    simp only [and_eq_true, beq_iff_eq] at conditions
    cases h
    exact ⟨conditions.1.1, conditions.1.2, conditions.2, rfl⟩
  · cases h

theorem headBefore_of_ahead (h : s.valuesAhead text = some rest) :
    HeadBefore s text s.flush.tokens [] (text.takeWhile isSqlIdentChar) rest := by
  obtain ⟨starts, depth, keyword, rfl⟩ := valuesAhead_eq_some h
  rw [drop_takeWhile]
  exact ⟨List.takeWhile_append_dropWhile.symm, keyword, boundary_dropWhile text, s, rfl, starts,
    depth, rfl⟩

theorem inside_of_startsWord (starts : s.startsWord = true) (quote : Char) :
    s.inside quote = false := by
  unfold startsWord at starts
  unfold inside
  split
  · rename_i mode
    rw [mode] at starts
    cases starts
  · rfl

/-- A keyword is no character that opens anything. -/
theorem first_of_valuesWord {word : Str} (keyword : isValuesWord word = true) :
    ∃ ch rest, word = ch :: rest ∧ (ch = 'v' ∨ ch = 'V') := by
  cases word with
  | nil => cases keyword
  | cons ch rest =>
    refine ⟨ch, rest, rfl, ?_⟩
    have lower : ch.toLower = 'v' := by
      simp only [isValuesWord, map_cons, or_eq_true, beq_iff_eq] at keyword
      obtain h | h := keyword
      · exact (List.cons.inj h).1
      · exact (List.cons.inj h).1
    by_cases small : ch.toNat < 128
    · revert lower
      exact forall_char_lt (P := fun ch => ch.toLower = 'v' → ch = 'v' ∨ ch = 'V') (by decide) ch
        small
    · have same := toLower_congr (f := fun c => decide (c.toNat < 128)) (by decide) ch
      rw [lower, decide_eq_false small] at same
      cases same

/-- Where the reading does not find the keyword, the scanner does not. -/
theorem afterValuesKeyword_none (named : s.Named) (linked : Linked s before)
    (step : s.step ch = some next) (ahead : s.valuesAhead (ch :: text) = none)
    (unmasked : (next.inside '"' || next.inside '\x60') = false) (top : s.depth = 0) :
    afterValuesKeyword before (ch :: text) = none := by
  rw [afterValuesKeyword_eq, if_neg]
  intro found
  rw [and_eq_true] at found
  by_cases inName : ∃ quote text, s.mode = .name quote text false
  · obtain ⟨quote, name, mode⟩ := inName
    have quotes := named _ _ _ mode
    -- The character closes the name, so it is no letter.
    have closes : ch = quote := by
      by_contra other
      have plain : ch ≠ '\\' := (scanner_step named step (show none ≠ some '\\' by simp) []).2
      rw [HeadState.step, mode] at step
      simp only [beq_iff_eq, other, plain, if_false, some.injEq] at step
      subst step
      rcases quotes with rfl | rfl
      all_goals simp [inside] at unmasked
    subst closes
    have noWord : isSqlIdentChar ch = false := not_isSqlIdentChar (.inr (.inr quotes))
    rw [takeWhile_cons, noWord] at found
    cases found.2
  · have starts := linked fun quote text mode => inName ⟨quote, text, mode⟩
    rw [found.1] at starts
    unfold valuesAhead at ahead
    simp [starts, top, found.2] at ahead

theorem HeadBefore.cons {word : Str} (step : s.step ch = some next)
    (h : HeadBefore next text tokens front word rest) :
    HeadBefore s (ch :: text) tokens (ch :: front) word rest where
  text_eq := congrArg (ch :: ·) h.text_eq
  keyword := h.keyword
  boundary := h.boundary
  run := by
    obtain ⟨last, run, facts⟩ := h.run
    refine ⟨last, ?_, facts⟩
    rw [HeadState.run, step]
    exact run

theorem findTopLevelValuesKeyword_eq (named : s.Named) (linked : Linked s before)
    (unescaped : previous ≠ some '\\') (h : readHead s text = some (tokens, rest)) :
    ∃ front word, HeadBefore s text tokens front word rest ∧
      findTopLevelValuesKeyword (s.scanner previous) s.depth before text =
        some (before ++ front, rest) := by
  induction text generalizing s before previous with
  | nil => cases h
  | cons ch text ih =>
    rw [readHead] at h
    cases ahead : s.valuesAhead (ch :: text) with
    | some after =>
      rw [ahead] at h
      cases h
      refine ⟨[], _, headBefore_of_ahead ahead, ?_⟩
      obtain ⟨starts, depth, keyword, rfl⟩ := valuesAhead_eq_some ahead
      obtain ⟨first, _, word, isV⟩ := first_of_valuesWord keyword
      have same : ch = first := by
        rw [takeWhile_cons] at word
        split at word
        · exact (List.cons.inj word).1
        · cases word
      subst same
      have scanner : s.scanner previous = { previous } := by
        simp [scanner, inside_of_startsWord starts]
      have boundary := linked (fun quote text mode => by simp [startsWord, mode] at starts)
      rw [starts] at boundary
      have stepped : ({ previous } : SqlScanner).step ch text = { previous := some ch } := by
        apply scanner_plain
        rcases isV with rfl | rfl <;> decide
      have noBracket : (ch == '(') = false ∧ (ch == ')') = false := by
        rcases isV with rfl | rfl <;> decide
      have found := afterValuesKeyword_eq before (ch :: text)
      rw [← boundary, keyword] at found
      unfold findTopLevelValuesKeyword
      simp only [scanner, stepped, noBracket, depth, found]
      simp [SqlScanner.isMasked]
    | none =>
      rw [ahead] at h
      obtain ⟨next, step, h⟩ := Option.bind_eq_some_iff.mp h
      have link : Linked next (before ++ [ch]) := .step named step
      obtain ⟨stepped, plain⟩ := scanner_step named step unescaped text
      have unescaped' : some ch ≠ some '\\' := by simpa using plain
      obtain ⟨front, word, found, search⟩ := ih (named.step step) link unescaped' h
      refine ⟨ch :: front, word, found.cons step, ?_⟩
      rw [append_assoc, singleton_append, step_depth named step] at search
      unfold findTopLevelValuesKeyword
      simp only [stepped, isMasked_scanner]
      cases masked : next.inside '"' || next.inside '\x60' with
      | true =>
        rw [masked] at search
        simpa using search
      | false =>
        rw [masked] at search
        have none : s.depth = 0 → afterValuesKeyword before (ch :: text) = none :=
          afterValuesKeyword_none named linked step ahead masked
        simp only [Bool.false_eq_true, if_false, depthAfter] at search ⊢
        split
        · rename_i isOpen
          rwa [if_pos isOpen] at search
        rename_i notOpen
        rw [if_neg notOpen] at search
        split
        · rename_i isClose
          rwa [if_pos isClose] at search
        rename_i notClose
        rw [if_neg notClose] at search
        split
        · rename_i top
          rw [none (beq_iff_eq.mp top)]
          exact search
        · exact search

/-! ## The same head before another keyword -/

/-- No word crosses the cut. -/
def Ends (front back : Str) : Prop :=
  back.head?.all (fun ch => !isSqlIdentChar ch) = true ∨
    front.getLast?.all (fun ch => !isSqlIdentChar ch) = true

theorem Ends.tail (h : Ends (ch :: front) back) : Ends front back := by
  obtain head | last := h
  · exact .inl head
  right
  cases front with
  | nil => rfl
  | cons d front => simpa [getLast?_cons_cons] using last

theorem Ends.takeWhile_eq (h : Ends (ch :: front) back) :
    (ch :: front ++ back).takeWhile isSqlIdentChar = (ch :: front).takeWhile isSqlIdentChar := by
  rw [takeWhile_append]
  split
  · rename_i whole
    have all : (ch :: front).takeWhile isSqlIdentChar = ch :: front :=
      ( takeWhile_prefix _).eq_of_length whole
    have ident := takeWhile_eq_self_iff.mp all
    obtain head | last := h
    · cases back with
      | nil => rw [takeWhile_nil, append_nil, all]
      | cons d back =>
        have stop : isSqlIdentChar d = false := by simpa using head
        rw [takeWhile_cons, stop, all]
        simp
    · have some := getLast?_eq_some_getLast (cons_ne_nil ch front)
      rw [some] at last
      have := ident _ (getLast_mem (cons_ne_nil ch front))
      simp [this] at last
  · rfl

theorem valuesAhead_congr {back' : Str} (ends : Ends (ch :: front) back)
    (ends' : Ends (ch :: front) back') (h : s.valuesAhead (ch :: front ++ back) = none) :
    s.valuesAhead (ch :: front ++ back') = none := by
  unfold valuesAhead at h ⊢
  rw [ends.takeWhile_eq] at h
  rw [ends'.takeWhile_eq]
  dsimp only at h ⊢
  split at h
  · cases h
  · rw [if_neg ‹_›]

/-- Up to the cut the reading does not depend on what follows. -/
theorem readHead_congr {back' : Str} (ends : Ends front back) (ends' : Ends front back')
    (h : readHead s (front ++ back) = some (tokens, rest)) (later : rest.length < back.length) :
    ∃ last, s.run front = some last ∧ readHead last back = some (tokens, rest) ∧
      readHead s (front ++ back') = readHead last back' := by
  induction front generalizing s with
  | nil => exact ⟨s, rfl, h, rfl⟩
  | cons ch front ih =>
    rw [cons_append, readHead] at h
    cases ahead : s.valuesAhead (ch :: (front ++ back)) with
    | some after =>
      rw [ahead] at h
      cases h
      obtain ⟨-, -, -, rfl⟩ := valuesAhead_eq_some ahead
      rw [← cons_append, ends.takeWhile_eq, length_drop] at later
      have short := ( takeWhile_prefix (l := ch :: front) isSqlIdentChar).length_le
      simp only [length_append, length_cons] at later short
      omega
    | none =>
      rw [ahead] at h
      obtain ⟨next, step, h⟩ := Option.bind_eq_some_iff.mp h
      obtain ⟨last, run, rest, same⟩ := ih ends.tail ends'.tail h
      refine ⟨last, ?_, rest, ?_⟩
      · rw [HeadState.run, step]
        exact run
      have none := valuesAhead_congr ends ends' ahead
      rw [cons_append] at none
      rw [cons_append, readHead, none, step]
      exact same

theorem not_plain_of_whitespace (blank : isWhitespace c = true) :
    isPlainWordChar c = false ∧ ¬ IsMark c := by
  constructor
  · by_contra plain
    rw [Bool.not_eq_false] at plain
    exact absurd (isSqlIdentChar_of_plain plain) (by simp [not_isSqlIdentChar_of_whitespace blank])
  · intro mark
    exact mark.cases (P := (isWhitespace · ≠ true)) (by decide) blank

namespace HeadState

/-- Not inside a name. -/
def Outside (s : HeadState) : Prop := ∀ quote text, s.mode ≠ .name quote text false

theorem outside_of_startsWord (starts : s.startsWord = true) : s.Outside := by
  intro quote text mode
  simp [startsWord, mode] at starts

/-- A blank outside names only finishes the last token. -/
theorem step_whitespace (named : s.Named) (blank : isWhitespace ch = true)
    (h : s.step ch = some next) (outside : next.Outside) :
    next = s.flush ∧ s.Outside ∧ isSqlBlank ch = true := by
  obtain ⟨noWord, noMark⟩ := not_plain_of_whitespace blank
  cases steps_of_step h with
  | closes mode same eq =>
    subst same
    exact absurd (.inr (named _ _ _ mode)) noMark
  | inside mode other plain eq | reopens mode same eq =>
    subst eq
    exact absurd rfl (outside _ _)
  | word mode plain eq | begins mode plain eq =>
    rw [noWord] at plain
    cases plain
  | punctuates out _ _ eq =>
    rcases punctuate_cases eq with ⟨blank, rfl⟩ | ⟨mark, _⟩ | ⟨quotes, _⟩
    · exact ⟨rfl, out, blank⟩
    · exact absurd (.inl mark) noMark
    · exact absurd (.inr quotes) noMark

theorem run_append (front back : Str) :
    s.run (front ++ back) = (s.run front).bind fun mid => mid.run back := by
  induction front generalizing s with
  | nil => rfl
  | cons ch front ih =>
    rw [cons_append, run, run]
    cases s.step ch with
    | none => rfl
    | some next => exact ih

theorem Named.run (named : s.Named) (h : s.run text = some last) : last.Named := by
  induction text generalizing s with
  | nil =>
    cases h
    exact named
  | cons ch text ih =>
    obtain ⟨next, step, h⟩ := Option.bind_eq_some_iff.mp h
    exact ih (named.step step) h

/-- Blanks before the keyword only finish the last token. -/
theorem run_whitespace {blanks : Str} (named : s.Named) (blank : blanks.all isWhitespace = true)
    (h : s.run blanks = some last) (outside : last.Outside) :
    s.Outside ∧ last.depth = s.depth ∧ last.flush = s.flush := by
  induction blanks generalizing s with
  | nil =>
    cases h
    exact ⟨outside, rfl, rfl⟩
  | cons ch blanks ih =>
    rw [all_cons, and_eq_true] at blank
    obtain ⟨next, step, h⟩ := Option.bind_eq_some_iff.mp h
    obtain ⟨out, depth, same⟩ := ih (named.step step) blank.2 h
    obtain ⟨rfl, outS, -⟩ := step_whitespace named blank.1 step out
    exact ⟨outS, by rw [depth, flush_depth], by rw [same, flush_flush]⟩

theorem step_outside (outside : s.Outside)
    (differs : ∀ quote text, s.mode = .name quote text true → ch ≠ quote)
    (noWord : isPlainWordChar ch = false) : s.step ch = s.flush.punctuate ch := by
  unfold step
  split
  · rename_i mode
    exact absurd mode (outside _ _)
  · rename_i mode
    rw [if_neg (by simpa using differs _ _ mode), if_neg (by simp [noWord])]
  · rw [if_neg (by simp [noWord])]

theorem step_blank (named : s.Named) (outside : s.Outside) : s.step ' ' = some s.flush := by
  rw [step_outside outside _ (by decide), punctuate, if_pos (by decide)]
  rintro quote text mode rfl
  exact absurd (named _ _ _ mode) (by decide)

end HeadState

/-- The head before a blank and the keyword. -/
theorem readHead_values (named : s.Named) (outside : s.Outside) (top : s.depth = 0) (more : Str) :
    readHead s (" VALUES\n".toList ++ more) = some (s.flush.tokens, '\n' :: more) := by
  have text : " VALUES\n".toList ++ more = ' ' :: 'V' :: ("ALUES\n".toList ++ more) := rfl
  have none : s.valuesAhead (' ' :: 'V' :: ("ALUES\n".toList ++ more)) = none := by
    have word : isValuesWord [] = false := rfl
    exact if_neg (by simp [isSqlIdentChar, word])
  have found : s.flush.valuesAhead ('V' :: ("ALUES\n".toList ++ more)) = some ('\n' :: more) := by
    have word : ("VALUES\n".toList ++ more).takeWhile isSqlIdentChar = "VALUES".toList := rfl
    simp only [valuesAhead, word, startsWord, flush_mode, flush_depth, top]
    rfl
  rw [text]
  rw [readHead, none, step_blank named outside]
  dsimp only [bind_some]
  rw [readHead, found, flush_flush]

/-! ## The key -/

def HeadMode.lower : HeadMode → HeadMode
  | .code word => .code (word.map Char.toLower)
  | other => other

variable {next : HeadState}

namespace HeadState

def lower (s : HeadState) : HeadState :=
  { s with mode := s.mode.lower, tokens := s.tokens.map HeadToken.lower }

attribute [local simp] HeadMode.lower lower

theorem lower_mode_eq_name {quote : Char} {closed : Bool} :
    s.lower.mode = .name quote text closed ↔ s.mode = .name quote text closed := by
  cases mode : s.mode <;> simp [mode]

theorem flush_lower (s : HeadState) : s.lower.flush = s.flush.lower := by
  cases mode : s.mode with
  | code word =>
    cases word with
    | nil => simp [flush, mode]
    | cons c word => simp [flush, mode, HeadToken.lower]
  | name quote text closed => simp [flush, mode, HeadToken.lower]

/-- The character of the key for a character of the head. -/
def keyChar (next : HeadState) (ch : Char) : Char :=
  if next.inside '"' || next.inside '\x60' then ch
  else if isSqlBlank ch then ' '
  else ch.toLower

theorem isPlainWordChar_toLower (c : Char) : isPlainWordChar c.toLower = isPlainWordChar c :=
  toLower_congr (by decide) c

theorem isSqlBlank_of_plain (plain : isPlainWordChar c = true) : isSqlBlank c = false :=
  Bool.eq_false_iff.mpr fun blank =>
    absurd (isSqlIdentChar_of_plain plain) (by simp [not_isSqlIdentChar (.inl blank)])

theorem keyChar_mark (mark : IsMark ch) : keyChar next ch = ch := by
  obtain ⟨notBlank, same⟩ := mark.cases (P := fun ch => isSqlBlank ch = false ∧ ch.toLower = ch)
    (by decide)
  unfold keyChar
  rw [notBlank, same]
  simp

theorem keyChar_inside {quote : Char} (mode : next.mode = .name quote text false)
    (quotes : quote = '"' ∨ quote = '\x60') : keyChar next ch = ch := by
  rw [keyChar, if_pos]
  rcases quotes with rfl | rfl
  all_goals simp [inside, mode]

theorem keyChar_word {letters : Str} (mode : next.mode = .code letters)
    (plain : isPlainWordChar ch = true) : keyChar next ch = ch.toLower := by
  rw [keyChar, isSqlBlank_of_plain plain]
  simp [inside, mode]

theorem punctuate_lower (s : HeadState) (ch : Char) :
    s.lower.punctuate ch = (s.punctuate ch).map lower := by
  unfold punctuate
  repeat' split
  all_goals simp [HeadToken.lower]

/-- The reading of the key follows the reading of the head, in lower case. -/
theorem step_lower (named : s.Named) (h : s.step ch = some next) :
    s.lower.step (keyChar next ch) = some next.lower := by
  cases steps_of_step h with
  | closes mode same eq =>
    subst eq same
    rw [keyChar_mark (.inr (named _ _ _ mode))]
    simp [step, mode]
  | inside mode other plain eq =>
    subst eq
    rw [keyChar_inside rfl (named _ _ _ mode)]
    simp [step, mode, other, plain]
  | reopens mode same eq =>
    subst eq same
    rw [keyChar_inside rfl (named _ _ _ mode)]
    simp [step, mode]
  | word mode plain eq =>
    subst eq
    rw [keyChar_word rfl plain]
    simp [step, mode, isPlainWordChar_toLower, plain]
  | begins mode plain eq =>
    subst eq
    rw [keyChar_word rfl plain]
    have word : isPlainWordChar ch.toLower = true := by rwa [isPlainWordChar_toLower]
    have other : ∀ quote : Char, (quote = '"' ∨ quote = '\x60') → ch.toLower ≠ quote := by
      rintro _ quotes rfl
      rcases quotes with quote | quote
      all_goals
        rw [quote] at word
        revert word
        decide
    have flushed := s.flush_lower
    rw [step]
    simp only [lower, mode, HeadMode.lower, beq_iff_eq, other _ (named _ _ _ mode), if_false, word,
      if_true]
    simp only [lower, mode, HeadMode.lower] at flushed
    rw [flushed]
    rfl
  | punctuates out differs noWord eq =>
    have outside : s.lower.Outside := fun quote text mode =>
      out quote text (lower_mode_eq_name.mp mode)
    have named' : s.lower.Named := fun quote text closed mode =>
      named quote text closed (lower_mode_eq_name.mp mode)
    have mark : IsMark ch → s.lower.step (keyChar next ch) = some next.lower := by
      intro marked
      rw [keyChar_mark marked, step_outside outside
        (fun quote text mode => differs quote text (lower_mode_eq_name.mp mode)) noWord,
        flush_lower, punctuate_lower, eq]
      rfl
    rcases punctuate_cases eq with ⟨blank, rfl⟩ | ⟨symbol, _⟩ | ⟨quotes, _⟩
    · have key : keyChar s.flush ch = ' ' := by
        simp [keyChar, inside, flush_mode, blank]
      rw [key, step_blank named' outside, flush_lower]
    · exact mark (.inl symbol)
    · exact mark (.inr quotes)

theorem isQuoted_scanner (s : HeadState) (previous : Option Char) :
    (s.scanner previous).isQuoted = (s.inside '"' || s.inside '\x60') := by
  simp [SqlScanner.isQuoted, scanner]

theorem outside_of_unmasked (named : s.Named) (unmasked : (s.inside '"' || s.inside '\x60') = false) :
    s.Outside := by
  intro quote text mode
  rcases named _ _ _ mode with rfl | rfl
  all_goals simp [inside, mode] at unmasked

/-- Reading the key gives the tokens in lower case. -/
theorem run_key {s last : HeadState} {text : Str} {previous : Option Char} {space : Bool}
    (named : s.Named) (unescaped : previous ≠ some '\\') (spaced : space = true → s.flush = s)
    (h : s.run text = some last) :
    s.lower.run (normalizeInsertPrefixKeyFrom (s.scanner previous) space text) =
      some last.lower := by
  induction text generalizing s previous space with
  | nil =>
    cases h
    rfl
  | cons ch text ih =>
    obtain ⟨next, step, h⟩ := Option.bind_eq_some_iff.mp h
    obtain ⟨stepped, plain⟩ := scanner_step named step unescaped text
    have unescaped' : some ch ≠ some '\\' := by simpa using plain
    have lowered := step_lower named step
    rw [normalizeInsertPrefixKeyFrom]
    simp only [stepped, isQuoted_scanner]
    cases masked : next.inside '"' || next.inside '\x60' with
    | true =>
      rw [keyChar, if_pos masked] at lowered
      rw [if_pos rfl, run, lowered]
      exact ih (named.step step) unescaped' (by simp) h
    | false =>
      rw [keyChar, masked] at lowered
      have outside := outside_of_unmasked (named.step step) masked
      rw [if_neg (by simp)] at lowered
      rw [if_neg (by simp)]
      cases blank : isWhitespace ch with
      | true =>
        obtain ⟨rfl, out, sqlBlank⟩ := step_whitespace named blank step outside
        rw [if_pos sqlBlank] at lowered
        have later : s.flush.lower.run (normalizeInsertPrefixKeyFrom (s.flush.scanner (some ch))
            true text) = some last.lower :=
          ih (named.step step) unescaped' (fun _ => s.flush_flush) h
        rw [if_pos rfl]
        cases space with
        | true =>
          rw [spaced rfl] at later ⊢
          exact later
        | false =>
          rw [if_neg (by simp), singleton_append, run, lowered]
          exact later
      | false =>
        have notBlank : isSqlBlank ch = false :=
          Bool.eq_false_iff.mpr fun sql => by simp [isWhitespace_of_sqlBlank sql] at blank
        rw [notBlank, if_neg (by simp)] at lowered
        rw [if_neg (by simp), run, lowered]
        exact ih (named.step step) unescaped' (by simp) h

end HeadState

theorem isWhitespace_toLower (c : Char) : isWhitespace c.toLower = isWhitespace c :=
  toLower_congr (by decide) c

/-- What a character adds to the key, and where the rest goes on. -/
theorem normalizeInsertPrefixKeyFrom_cons (scanner : SqlScanner) (space : Bool) (ch : Char)
    (text : Str) : ∃ piece scanner' space', normalizeInsertPrefixKeyFrom scanner space (ch :: text) =
        piece ++ normalizeInsertPrefixKeyFrom scanner' space' text ∧
      (isWhitespace ch = false → ∃ c, piece = [c] ∧ isWhitespace c = false) := by
  rw [normalizeInsertPrefixKeyFrom]
  split
  · exact ⟨[ch], _, _, rfl, fun visible => ⟨ch, rfl, visible⟩⟩
  split
  · rename_i blank
    exact ⟨_, _, _, rfl, fun visible => by simp [visible] at blank⟩
  · exact ⟨[ch.toLower], _, _, rfl, fun visible => ⟨_, rfl, by rw [isWhitespace_toLower, visible]⟩⟩

theorem head?_normalizeInsertPrefixKeyFrom (scanner : SqlScanner) (space : Bool) (text : Str)
    (visible : isWhitespace ch = false) :
    ∃ first, (normalizeInsertPrefixKeyFrom scanner space (ch :: text)).head? = some first ∧
      isWhitespace first = false := by
  obtain ⟨_, _, _, key, piece⟩ := normalizeInsertPrefixKeyFrom_cons scanner space ch text
  obtain ⟨c, rfl, dark⟩ := piece visible
  exact ⟨c, by rw [key]; rfl, dark⟩

theorem getLast?_normalizeInsertPrefixKeyFrom (scanner : SqlScanner) (space : Bool)
    (last : text.getLast? = some ch) (visible : isWhitespace ch = false) :
    ∃ final, (normalizeInsertPrefixKeyFrom scanner space text).getLast? = some final ∧
      isWhitespace final = false := by
  induction text generalizing scanner space with
  | nil => cases last
  | cons c text ih =>
    obtain ⟨_, scanner', space', key, piece⟩ :=
      normalizeInsertPrefixKeyFrom_cons scanner space c text
    cases text with
    | nil =>
      obtain rfl : c = ch := by simpa using last
      obtain ⟨d, rfl, dark⟩ := piece visible
      exact ⟨d, by rw [key]; rfl, dark⟩
    | cons d text =>
      obtain ⟨final, end', dark⟩ := ih scanner' space' last
      exact ⟨final, by rw [key, getLast?_append, end']; rfl, dark⟩

/-- A text without blanks at its ends. -/
structure Trimmed (text : Str) : Prop where
  head : ∃ c, text.head? = some c ∧ isWhitespace c = false
  last : ∃ c, text.getLast? = some c ∧ isWhitespace c = false

/-- Nothing is trimmed from the key of such a text. -/
theorem Trimmed.key_eq (trimmed : Trimmed text) :
    normalizeInsertPrefixKey text = normalizeInsertPrefixKeyFrom {} false text := by
  obtain ⟨last, ends, dark'⟩ := trimmed.last
  obtain ⟨first, head, dark⟩ := trimmed.head
  obtain ⟨final, finalEq, finalDark⟩ := getLast?_normalizeInsertPrefixKeyFrom {} false ends dark'
  obtain ⟨text, rfl⟩ := head?_eq_some_iff.mp head
  obtain ⟨begin', beginEq, beginDark⟩ := head?_normalizeInsertPrefixKeyFrom {} false text dark
  rw [normalizeInsertPrefixKey, trim, trimStart_eq_self beginEq beginDark,
    trimEnd_eq_self finalEq finalDark]

theorem named_start : ({} : HeadState).Named := by
  intro quote text closed mode
  cases mode

theorem run_key_start (trimmed : Trimmed text) (run : HeadState.run {} text = some s) :
    HeadState.run {} (normalizeInsertPrefixKey text) = some s.lower := by
  rw [trimmed.key_eq]
  exact @run_key {} s text none false named_start (by simp) (by simp) run

/-- Heads with one key have the same tokens, up to the case of the letters outside quotes. -/
theorem lowerTokens_of_key_eq {text' : Str} {s' : HeadState} (trimmed : Trimmed text)
    (trimmed' : Trimmed text') (run : HeadState.run {} text = some s)
    (run' : HeadState.run {} text' = some s')
    (key : normalizeInsertPrefixKey text = normalizeInsertPrefixKey text') :
    s.flush.tokens.map HeadToken.lower = s'.flush.tokens.map HeadToken.lower := by
  have lowered := run_key_start trimmed run
  rw [key, run_key_start trimmed' run'] at lowered
  have states : s'.lower = s.lower := some.inj lowered
  have flushed : s'.flush.lower = s.flush.lower := by
    rw [← flush_lower, ← flush_lower, states]
  exact (congrArg tokens flushed).symm

/-! ## The head that the import keeps -/

theorem Linked.run (named : s.Named) (linked : Linked s before) (h : s.run text = some last) :
    Linked last (before ++ text) := by
  induction text generalizing s before with
  | nil =>
    cases h
    rwa [append_nil]
  | cons ch text ih =>
    obtain ⟨next, step, h⟩ := Option.bind_eq_some_iff.mp h
    rw [append_cons]
    exact ih (named.step step) (.step named step) h

theorem linked_start : Linked {} [] := fun _ => rfl

/-- The head of a statement as the import cuts it off. -/
structure KeptHead (start : Str) (tokens : List HeadToken) : Prop where
  run : ∃ s, HeadState.run {} start = some s ∧ s.flush.tokens = tokens
  read : ∀ more, readHead {} (start ++ (" VALUES\n".toList ++ more)) = some (tokens, '\n' :: more)

theorem exists_keptHead (h : readHead {} text = some (tokens, rest)) :
    ∃ before word, text = before ++ (word ++ rest) ∧ isValuesWord word = true ∧
      findTopLevelValuesKeyword {} 0 [] text = some (before, rest) ∧
      KeptHead (trimEnd before) tokens := by
  obtain ⟨front, word, found, search⟩ := findTopLevelValuesKeyword_eq named_start linked_start
    (show none ≠ some '\\' by simp) h
  refine ⟨front, word, found.text_eq, found.keyword, search, ?_⟩
  obtain ⟨last, run, starts, top, rfl⟩ := found.run
  have cut : trimEnd front ++ front.rtakeWhile isWhitespace = front :=
    rdropWhile_append_rtakeWhile
  have blanks : (front.rtakeWhile isWhitespace).all isWhitespace = true :=
    all_eq_true.mpr fun c member => mem_rtakeWhile_imp member
  obtain ⟨mid, runStart, runBlanks⟩ := Option.bind_eq_some_iff.mp
    (by rw [← run_append, cut]; exact run)
  have named := named_start.run runStart
  obtain ⟨outside, depth, flushed⟩ := run_whitespace named blanks runBlanks
    (outside_of_startsWord starts)
  have ends : Ends (trimEnd front) (front.rtakeWhile isWhitespace ++ (word ++ rest)) := by
    cases none : front.rtakeWhile isWhitespace with
    | nil =>
      right
      rw [none, append_nil] at cut
      have linked := Linked.run named_start linked_start run
      rw [nil_append] at linked
      rw [cut, ← linked (outside_of_startsWord starts), starts]
    | cons c blanks' =>
      left
      rw [none, all_cons, and_eq_true] at blanks
      simp [not_isSqlIdentChar_of_whitespace blanks.1]
  refine ⟨⟨mid, runStart, by rw [flushed]⟩, fun more => ?_⟩
  have whole : trimEnd front ++ (front.rtakeWhile isWhitespace ++ (word ++ rest)) = text := by
    rw [← append_assoc, cut, found.text_eq]
  have later : rest.length < (front.rtakeWhile isWhitespace ++ (word ++ rest)).length := by
    obtain ⟨c, word', rfl, -⟩ := first_of_valuesWord found.keyword
    simp only [length_append, length_cons]
    omega
  have ends' : Ends (trimEnd front) (" VALUES\n".toList ++ more) := .inl rfl
  obtain ⟨mid', runStart', -, same⟩ := readHead_congr ends ends' (by rw [whole]; exact h) later
  rw [runStart] at runStart'
  cases runStart'
  rw [same, readHead_values named outside (by rw [← depth, top]), flushed]

end Dbx.Guarantees.InsertHeads
