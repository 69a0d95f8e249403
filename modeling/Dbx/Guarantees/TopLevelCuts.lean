import Dbx.Lib.TopLevel
import Dbx.Source.StatementSplitter

/-!
# The splitter cuts at the top-level semicolons

The loop of `SqlStatementSplitter` tells comments from code by the last character it has
read. With the default profile it follows the reading of `Dbx.Lib.TopLevel` character by
character as long as the comments of the text stand apart and no part of it is taken for a
DELIMITER line: `splitter` gives its state at every point of that reading, `splitter_step` is
one turn of the loop and `scan_segments` a whole run.
-/
namespace Dbx.Guarantees.TopLevelCuts

open Dbx.Lib.Text Dbx.Lib.TopLevel Dbx.Source List Option
open Dbx.Lib.Lexing (Quote)
open SqlStatementSplitter

/-- What the last character and the next one have to do with the mode. -/
def Edge : Mode → Option Char → Option Char → Prop
  | .code, previous, next =>
    ¬(previous = some '-' ∧ next = some '-') ∧ ¬(previous = some '/' ∧ next = some '*')
  | .dash, previous, next => previous = some '-' ∧ next = some '-'
  | .slash, previous, next => previous = some '/' ∧ next = some '*'
  | .block, previous, next => ¬(previous = some '*' ∧ next = some '/')
  | .star, previous, next => previous = some '*' ∧ next = some '/'
  | .doubled q, previous, next => previous = some q.char ∧ next = some q.char
  | .line, _, _ | .quoted _, _, _ => True

theorem quoteAt_char {c : Char} {q : Quote} (h : quoteAt c = some q) : c = q.char := by
  unfold quoteAt at h
  split at h
  · next same => cases h; exact same
  split at h
  · next same => cases h; exact same
  split at h
  · next same => cases h; exact same
  · cases h

theorem Quote.char_ne (q : Quote) : q.char ≠ '-' ∧ q.char ≠ '/' ∧ q.char ≠ '\n' ∧ q.char ≠ ';' ∧
    q.char ≠ '*' ∧ isWhitespace q.char = false := by
  cases q <;> decide

/-- The cases of a character of code. -/
theorem after_code (c : Char) (next : Option Char) :
    (c = '-' ∧ next = some '-' ∧ Mode.after .code c next = .dash) ∨
    (c = '/' ∧ next = some '*' ∧ Mode.after .code c next = .slash) ∨
    (∃ q, c = Quote.char q ∧ Mode.after .code c next = .quoted q) ∨
    (¬(c = '-' ∧ next = some '-') ∧ ¬(c = '/' ∧ next = some '*') ∧ quoteAt c = none ∧
      Mode.after .code c next = .code) := by
  simp only [Mode.after]
  by_cases dashes : c = '-' ∧ next = some '-'
  · exact .inl ⟨dashes.1, dashes.2, if_pos dashes⟩
  by_cases opening : c = '/' ∧ next = some '*'
  · exact .inr (.inl ⟨opening.1, opening.2, by rw [if_neg dashes, if_pos opening]⟩)
  rw [if_neg dashes, if_neg opening]
  cases quote : quoteAt c with
  | some q => exact .inr (.inr (.inl ⟨q, quoteAt_char quote, rfl⟩))
  | none => exact .inr (.inr (.inr ⟨dashes, opening, rfl, rfl⟩))

variable {mode : Mode} {previous : Option Char} {buffer : Str} {c : Char}

theorem edge_after {next : Option Char} (edge : Edge mode previous (some c))
    (noSlash : ¬(mode = .slash ∧ next = some '/')) (noStar : ¬(mode = .star ∧ next = some '*')) :
    Edge (mode.after c next) (some c) next := by
  cases mode with
  | code =>
    obtain ⟨rfl, rfl, after⟩ | ⟨rfl, rfl, after⟩ | ⟨q, _, after⟩ | ⟨noDashes, noOpening, _, after⟩ :=
      after_code c next
    · rw [after]
      exact ⟨rfl, rfl⟩
    · rw [after]
      exact ⟨rfl, rfl⟩
    · rw [after]
      trivial
    · rw [after]
      simp only [Edge, some.injEq]
      exact ⟨noDashes, noOpening⟩
  | dash => trivial
  | line =>
    simp only [Mode.after]
    split
    · next same => simp [Edge, same]
    · trivial
  | slash =>
    exact fun closing => noSlash ⟨rfl, closing.2⟩
  | block =>
    simp only [Mode.after]
    split
    · next closing => exact ⟨congrArg some closing.1, closing.2⟩
    · next goesOn =>
      simp only [Edge, some.injEq]
      exact goesOn
  | star =>
    obtain ⟨_, slash⟩ := edge
    injection slash with slash
    simp only [Edge, Mode.after, slash]
    constructor
    · intro dashes
      cases dashes.1
    · intro opening
      exact noStar ⟨rfl, opening.2⟩
  | quoted q =>
    simp only [Mode.after]
    split
    · next closing =>
      split
      · next again => exact ⟨congrArg some closing, again⟩
      · have other := Quote.char_ne q
        simp [Edge, closing, other]
    · trivial
  | doubled q => trivial

/-! ## What a segment has to execute -/

/-- In a line comment, as `hasExecutableSqlFrom` keeps it. -/
def inLine : Mode → Bool
  | .dash | .line => true
  | _ => false

def inBlock : Mode → Bool
  | .slash | .block | .star => true
  | _ => false

def isQuotedMode : Mode → Bool
  | .quoted _ | .doubled _ => true
  | _ => false

theorem isMysqlExecutableCommentStart_eq (rest : Str) :
    isMysqlExecutableCommentStart ('/' :: '*' :: rest) = isExecutable rest := by
  unfold isMysqlExecutableCommentStart isExecutable
  split <;> simp_all

attribute [local simp] inBlock inLine shows isQuotedMode

/-- `hasExecutableSqlFrom` sees what the reading shows. -/
theorem hasExecutableSqlFrom_eq {text : Str} (edge : Edge mode previous text.head?)
    (comments : apart mode text = true) (unquoted : isQuotedMode mode = false) :
    hasExecutableSqlFrom {} (inLine mode) (inBlock mode) previous text = showsCode mode text := by
  induction text generalizing mode previous with
  | nil => rw [hasExecutableSqlFrom, showsCode]
  | cons c rest ih =>
    obtain ⟨noSlash, noStar, later⟩ := apart_cons.mp comments
    have step := ih (edge_after edge noSlash noStar) later
    rw [hasExecutableSqlFrom, showsCode]
    cases mode with
    | code =>
      obtain ⟨rfl, ahead, after⟩ | ⟨rfl, ahead, after⟩ | ⟨q, rfl, after⟩ |
        ⟨noDashes, noOpening, _, after⟩ := after_code c rest.head?
      · rw [shows_dash after]
        rw [after] at step ⊢
        simpa [ahead] using step rfl
      · rw [shows_slash after]
        rw [after] at step ⊢
        obtain ⟨tail, rfl⟩ : ∃ tail, rest = '*' :: tail := by
          cases rest with
          | nil => cases ahead
          | cons d tail => exact ⟨tail, by rw [some.inj ahead]⟩
        have body := step rfl
        simp only [inLine, inBlock] at body
        cases executed : isExecutable tail <;>
          simp [isMysqlExecutableCommentStart_eq, executed, body]
      · have other := Quote.char_ne q
        simp [after, other]
      · rw [after] at step ⊢
        have body := step rfl
        simp only [inLine, inBlock] at body
        cases blank : isWhitespace c <;>
          simp [after, noDashes, noOpening, blank, body]
    | dash =>
      obtain ⟨_, second⟩ := edge
      injection second with second
      simpa [second, Mode.after] using step rfl
    | line =>
      by_cases ends : c = '\n'
      · have body := step (by simp [Mode.after, ends])
        simpa [ends, Mode.after] using body
      · have body := step (by simp [Mode.after, ends])
        have other : (c != '\n') = true := by simpa using ends
        simpa [ends, other, Mode.after] using body
    | slash =>
      obtain ⟨first, _⟩ := edge
      simpa [first, Mode.after] using step rfl
    | block =>
      simp only [Edge, head?_cons, some.injEq] at edge
      have open' : (previous == some '*' && c == '/') = false := by simpa using edge
      by_cases closes : c = '*' ∧ rest.head? = some '/'
      · have body := step (by simp [Mode.after, closes])
        simpa [open', closes, Mode.after] using body
      · have body := step (by simp [Mode.after, closes])
        simpa [open', closes, Mode.after] using body
    | star =>
      obtain ⟨first, second⟩ := edge
      injection second with second
      simpa [first, second, Mode.after] using step rfl
    | quoted | doubled => cases unquoted

/-! ## One turn of the loop -/

/-- The splitter with this much of a statement read. -/
def splitter (mode : Mode) (previous : Option Char) (buffer : Str) : SqlStatementSplitter :=
  { buffer := buffer
    inSingleQuote := mode = .quoted .single
    inDoubleQuote := mode = .quoted .double
    inBacktick := mode = .quoted .back
    inLineComment := mode = .line
    inBlockComment := inBlock mode
    previous := previous }

theorem hasOddTrailingBackslashes_of_not_mem (none : '\\' ∉ buffer) :
    hasOddTrailingBackslashes buffer = false := by
  have run : buffer.rtakeWhile (· == '\\') = [] := by
    rw [rtakeWhile_eq_nil_iff]
    intro nonempty last
    have here : buffer.getLast nonempty = '\\' := by simpa using last
    exact none (here ▸ getLast_mem nonempty)
  simp [hasOddTrailingBackslashes, run]

/-- Code without a dollar sign has no other branch than the comments. -/
theorem dollarBranch_plain (s : SqlStatementSplitter) (rest : Str) (noDollar : c ≠ '$') :
    s.dollarBranch c rest = .plain := by
  have noTag : dollarQuoteTagAt (c :: rest) = none := by
    unfold dollarQuoteTagAt
    split
    · next h => exact absurd (cons.inj h).1 noDollar
    · rfl
  unfold dollarBranch
  rw [noTag, ite_self]

theorem lineCommand_none {s : SqlStatementSplitter} (profile : s.options = {})
    (line : s.buffer = buffer ++ ['\n'])
    (quiet : parseDelimiterCommand (trim (lastLine buffer)) = none) : s.lineCommand = none := by
  simp [lineCommand, psqlCommand, delimiterCommand, profile, line, quiet]

variable (tokenize : Tokenizer)

attribute [local simp] quoted matchChar plainChar

/-- The turn at a character that is code and ends no statement. -/
theorem plainChar_code (noCut : c ≠ ';') (noBackslash : '\\' ∉ buffer)
    (quiet : c = '\n' → parseDelimiterCommand (trim (lastLine buffer)) = none) :
    (splitter .code previous buffer).plainChar tokenize c =
      (splitter (match quoteAt c with | some q => .quoted q | none => .code) (some c)
        (buffer ++ [c]), []) := by
  have even := hasOddTrailingBackslashes_of_not_mem noBackslash
  by_cases single : c = '\''
  · simp [splitter, even, single, keep, quoteAt]
  by_cases double : c = '"'
  · simp [splitter, even, double, keep, quoteAt]
  by_cases back : c = '\x60'
  · simp [splitter, back, keep, quoteAt]
  have matched : (splitter .code previous buffer).matchChar tokenize c =
      ((splitter .code previous buffer).keep c, []) := by
    simp [single, double, back, noCut]
  have command : (if c == '\n' then ((splitter .code previous buffer).keep c).lineCommand else none) =
      none := by
    by_cases newline : c = '\n'
    · rw [newline, if_pos (beq_self_eq_true _)]
      exact lineCommand_none rfl rfl (quiet newline)
    · rw [if_neg (by simpa using newline)]
  have still : ((splitter .code previous buffer).keep c).quoted = false := rfl
  simp only [plainChar, matched, still, command, Bool.false_eq_true, if_false]
  simp [quoteAt, single, double, back, checkDelimiter, splitter, keep]

/-- In quoted text only its own quote counts. -/
theorem plainChar_quoted {q : Quote} (c : Char) (noBackslash : '\\' ∉ buffer) :
    (splitter (.quoted q) previous buffer).plainChar tokenize c =
      (splitter (if c = q.char then .code else .quoted q) (some c) (buffer ++ [c]), []) := by
  have even := hasOddTrailingBackslashes_of_not_mem noBackslash
  by_cases closes : c = q.char
  · rw [if_pos closes, closes]
    cases q <;>
      simp [splitter, even, keep, checkDelimiter, Quote.char]
  · rw [if_neg closes]
    cases q <;> simp only [Quote.char] at closes <;>
      simp [splitter, closes, keep]

/-- Only the mode of a comment, of quoted text or of code shows in the splitter. -/
theorem splitter_unmarked (q : Quote) (previous : Option Char) (buffer : Str) :
    splitter .dash previous buffer = splitter .code previous buffer ∧
      splitter (.doubled q) previous buffer = splitter .code previous buffer := by
  simp [splitter]

attribute [local simp] commentBranch branch takeBranch pushChar

/-- A turn of the loop follows the reading where it does not cut. -/
theorem splitter_step (rest : Str) (edge : Edge mode previous (some c))
    (keep : ¬(mode = .code ∧ c = ';')) (noDollar : c ≠ '$') (noBackslash : '\\' ∉ buffer)
    (quiet : parseDelimiterCommand (trim (lastLine buffer)) = none) :
    (splitter mode previous buffer).takeBranch tokenize c
        ((splitter mode previous buffer).branch c rest) =
      ((splitter (mode.after c rest.head?) (some c) (buffer ++ [c]), []), 0) := by
  have plain := fun s => dollarBranch_plain s rest noDollar
  cases mode with
  | code =>
    have noCut : c ≠ ';' := fun h => keep ⟨rfl, h⟩
    have turn := @plainChar_code previous buffer c tokenize noCut noBackslash (fun _ => quiet)
    by_cases opening : c = '/' ∧ rest.head? = some '*'
    · have noDashes : ¬(c = '-' ∧ rest.head? = some '-') := by simp [opening]
      simp [splitter, opening, Mode.after]
    have stays : (splitter .code previous buffer).branch c rest = .plain := by
      have noStar : (previous == some '/' && c == '*') = false := by simpa using edge.2
      have noDash : (previous == some '-' && c == '-') = false := by simpa using edge.1
      have noOpen : (c == '/' && rest.head? == some '*') = false := by simpa using opening
      simp [splitter, noStar, noDash, noOpen, plain]
    rw [stays, takeBranch, turn]
    simp only [Mode.after, if_neg opening]
    by_cases dashes : c = '-' ∧ rest.head? = some '-'
    · rw [if_pos dashes, (splitter_unmarked .single _ _).1, dashes.1]
      rfl
    · rewrite [if_neg dashes]
      rfl
  | dash =>
    obtain ⟨first, second⟩ := edge
    injection second with second
    simp [splitter, first, second, Mode.after, dashDashStartsLineComment]
  | line =>
    by_cases ends : c = '\n' <;>
      simp [splitter, ends, Mode.after]
  | slash =>
    obtain ⟨first, _⟩ := edge
    simp [splitter, first, Mode.after]
  | block =>
    simp only [Edge, some.injEq] at edge
    have goesOn : (previous == some '*' && c == '/') = false := by simpa using edge
    by_cases closes : c = '*' ∧ rest.head? = some '/' <;>
      simp [splitter, goesOn, closes, Mode.after]
  | star =>
    obtain ⟨first, second⟩ := edge
    injection second with second
    simp [splitter, first, second, Mode.after]
  | quoted q =>
    have stays : (splitter (.quoted q) previous buffer).branch c rest = .plain := by
      cases q <;> simp [splitter, SqlStatementSplitter.quoted]
    rw [stays, takeBranch, plainChar_quoted tokenize c noBackslash]
    simp only [Mode.after]
    split
    · split
      · rw [(splitter_unmarked q _ _).2]
      · rfl
    · rfl
  | doubled q =>
    obtain ⟨first, second⟩ := edge
    injection second with second
    have other := Quote.char_ne q
    rw [(splitter_unmarked q _ _).2]
    have turn := @plainChar_code previous buffer c tokenize (second ▸ other.2.2.2.1) noBackslash
      (fun _ => quiet)
    have stays : (splitter .code previous buffer).branch c rest = .plain := by
      have noDash : (c == '-') = false := by simpa [second] using other.1
      have noStar : (c == '*') = false := by simpa [second] using other.2.2.2.2.1
      have noSlash : (c == '/') = false := by simpa [second] using other.2.1
      simp [splitter, SqlStatementSplitter.quoted, noDash, noStar, noSlash, plain]
    rw [stays, takeBranch, turn, second]
    cases q <;> rfl

/-! ## DELIMITER lines -/

/-- The word DELIMITER, in any case. -/
def IsDelimiter (word : Str) : Prop := word.map Char.toLower = "delimiter".toList

theorem startsWithDelimiter_iff {t : Str} :
    startsWithDelimiter t = true ↔ ∃ word rest, t = word ++ rest ∧ IsDelimiter word := by
  simp only [startsWithDelimiter, eqIgnoreAsciiCase, Bool.and_eq_true, decide_eq_true_eq, beq_iff_eq]
  constructor
  · rintro ⟨_, same⟩
    exact ⟨t.take 9, t.drop 9, (take_append_drop 9 t).symm, same⟩
  · rintro ⟨word, rest, rfl, same⟩
    have length : word.length = 9 := by simpa using congrArg length same
    rw [take_left' length, length_append]
    exact ⟨by omega, same⟩

variable {word : Str}

theorem IsDelimiter.not_blank (h : IsDelimiter word) (member : c ∈ word) :
    isWhitespace c = false := by
  have lower : c.toLower ∈ "delimiter".toList := h ▸ mem_map_of_mem member
  have same : isWhitespace c.toLower = isWhitespace c := toLower_congr (by decide) c
  rw [← same]
  have all : "delimiter".toList.all (!isWhitespace ·) = true := by decide
  simpa using all_eq_true.mp all _ lower

theorem IsDelimiter.ne_nil (h : IsDelimiter word) : word ≠ [] := by
  rintro rfl
  cases h

theorem startsWithDelimiter_append {t : Str} {more : Str} (h : startsWithDelimiter t = true) :
    startsWithDelimiter (t ++ more) = true := by
  obtain ⟨word, rest, rfl, same⟩ := startsWithDelimiter_iff.mp h
  exact startsWithDelimiter_iff.mpr ⟨word, rest ++ more, by rw [append_assoc], same⟩

theorem quiet_of_append {t more : Str} (h : startsWithDelimiter (trimStart (t ++ more)) = false) :
    startsWithDelimiter (trimStart t) = false := by
  by_contra starts
  rw [Bool.not_eq_false] at starts
  have kept : trimStart (t ++ more) = trimStart t ++ more := by
    unfold trimStart at starts ⊢
    rw [dropWhile_append, if_neg]
    intro empty
    rw [isEmpty_iff.mp empty] at starts
    cases starts
  rw [kept, startsWithDelimiter_append starts] at h
  cases h

/-- Trimming the end of a text does not touch its first word. -/
theorem startsWithDelimiter_trim (t : Str) :
    startsWithDelimiter (trim t) = startsWithDelimiter (trimStart t) := by
  rw [Bool.eq_iff_iff]
  constructor
  · intro h
    have whole : trim t ++ (trimStart t).rtakeWhile isWhitespace = trimStart t :=
      rdropWhile_append_rtakeWhile
    rw [← whole]
    exact startsWithDelimiter_append h
  · intro h
    obtain ⟨word, rest, whole, same⟩ := startsWithDelimiter_iff.mp h
    rw [trim, whole]
    clear whole h
    induction rest using reverseRecOn with
    | nil =>
      obtain ⟨front, last, rfl⟩ := (eq_nil_or_concat' word).resolve_left same.ne_nil
      rw [append_nil, trimEnd_eq_self getLast?_concat (same.not_blank (by simp))]
      exact startsWithDelimiter_iff.mpr ⟨_, [], (append_nil _).symm, same⟩
    | append_singleton rest last ih =>
      rw [trimEnd, ← append_assoc, rdropWhile_concat]
      split
      · exact ih
      · exact startsWithDelimiter_iff.mpr ⟨word, rest ++ [last], append_assoc .., same⟩

theorem parseDelimiterCommand_none {line : Str} (h : startsWithDelimiter line = false) :
    parseDelimiterCommand line = none := by
  unfold parseDelimiterCommand
  split
  · next command =>
    simp only [Bool.and_eq_true, decide_eq_true_eq, Bool.or_eq_true, eqIgnoreAsciiCase,
      beq_iff_eq] at command
    have nine : (line.take 9).map Char.toLower = "delimiter".toList := by
      have shorter : (line.take 9).map Char.toLower = ((line.take 10).map Char.toLower).take 9 := by
        rw [← map_take, take_take]
        rfl
      obtain same | same := command.2 <;> rw [shorter, same] <;> rfl
    have starts := startsWithDelimiter_iff.mpr
      ⟨line.take 9, line.drop 9, (take_append_drop 9 line).symm, nine⟩
    rw [h] at starts
    cases starts
  · rfl

/-- The last line is the whole text or stands behind a line feed. -/
theorem lastLine_cases (t : Str) : lastLine t = t ∨ ∃ front, t = front ++ '\n' :: lastLine t := by
  have whole := beforeLastLine_append_lastLine t
  obtain empty | ⟨front, last, same⟩ := eq_nil_or_concat' (beforeLastLine t)
  · rw [empty] at whole
    exact .inl whole
  have stop : last = '\n' := by
    have nonempty : beforeLastLine t ≠ [] := by simp [same]
    have found := rdropWhile_last_not (· != '\n') t nonempty
    have there : (beforeLastLine t).getLast nonempty = last := by simp [same]
    change ¬ ((beforeLastLine t).getLast nonempty != '\n') = true at found
    simpa [there] using found
  refine .inr ⟨front, ?_⟩
  rw [same, stop] at whole
  simpa using whole.symm

/-- No text behind a line feed starts with DELIMITER. -/
def QuietLines (text : Str) : Prop :=
  ∀ front back, text = front ++ '\n' :: back → startsWithDelimiter (trimStart back) = false

theorem QuietLines.suffix {front back : Str} (h : QuietLines (front ++ back)) : QuietLines back := by
  intro front' back' same
  exact h (front ++ front') back' (by rw [same, append_assoc])

/-- The last line of a quiet text, here a part of a longer one. -/
theorem QuietLines.last {before text after : Str} (h : QuietLines (before ++ text ++ after))
    (head : startsWithDelimiter (trimStart text) = false) :
    startsWithDelimiter (trimStart (lastLine text)) = false := by
  obtain same | ⟨front, split⟩ := lastLine_cases text
  · rw [same]
    exact head
  exact quiet_of_append (h (before ++ front) (lastLine text ++ after)
    (by nth_rewrite 1 [split]; simp))

/-- Where no line starts with DELIMITER, the text does not. -/
theorem quiet_of_lines {text : Str}
    (lines : ∀ line ∈ text.splitOn '\n', startsWithDelimiter (trim line) = false) :
    startsWithDelimiter (trimStart text) = false := by
  induction text with
  | nil => rfl
  | cons c rest ih =>
    by_cases blank : isWhitespace c = true
    · rw [trimStart, dropWhile_cons_of_pos blank]
      apply ih
      intro line member
      rw [splitOn, splitOnP_cons_eq_if_modifyHead] at lines
      split at lines
      · exact lines line (mem_cons_of_mem _ member)
      obtain ⟨first, others, parts⟩ := exists_cons_of_ne_nil (splitOnP_ne_nil (· == '\n') rest)
      rw [splitOn, parts] at member
      rw [parts] at lines
      obtain rfl | member := mem_cons.mp member
      · have first := lines (c :: line) mem_cons_self
        rwa [trim, trimStart, dropWhile_cons_of_pos blank] at first
      · exact lines line (mem_cons_of_mem _ member)
    -- the word stands in the first line
    by_contra starts
    rw [Bool.not_eq_false, trimStart, dropWhile_cons_of_neg blank] at starts
    obtain ⟨word, tail, whole, same⟩ := startsWithDelimiter_iff.mp starts
    have noBreak : ∀ d ∈ word, (!(d == '\n')) = true := by
      intro d member
      have visible := same.not_blank member
      by_contra newline
      simp only [Bool.not_eq_true', beq_eq_false_iff_ne, ne_eq, not_not] at newline
      rw [newline] at visible
      exact absurd visible (by decide)
    have line := lines (word ++ tail.takeWhile fun d => !(d == '\n')) (by
      rw [whole, splitOn, splitOnP_eq, takeWhile_append_of_pos noBreak]
      exact mem_cons_self)
    obtain ⟨first, others, rfl⟩ := exists_cons_of_ne_nil same.ne_nil
    rw [startsWithDelimiter_trim, trimStart_eq_self rfl (same.not_blank mem_cons_self),
      startsWithDelimiter_iff.mpr ⟨_, _, rfl, same⟩] at line
    cases line

/-- Text without DELIMITER lines has no DELIMITER behind a line feed. -/
theorem quietLines_of_lines {text : Str}
    (lines : ∀ line ∈ text.splitOn '\n', startsWithDelimiter (trim line) = false) :
    QuietLines text := by
  rintro front back rfl
  refine quiet_of_lines fun line member => lines line ?_
  rw [splitOn, splitOnP_append_cons _ _ (by decide)]
  exact mem_append_right _ member

/-! ## Blanks around a statement -/

theorem hasExecutableSqlFrom_code (previous : Option Char) (text : Str) :
    hasExecutableSqlFrom {} false false previous text =
      hasExecutableSqlFrom {} false false none text := by
  cases text with
  | nil => rfl
  | cons c rest => rw [hasExecutableSqlFrom, hasExecutableSqlFrom]; rfl

theorem hasExecutableSqlFrom_trimStart (previous : Option Char) (text : Str) :
    hasExecutableSqlFrom {} false false previous (trimStart text) =
      hasExecutableSqlFrom {} false false previous text := by
  induction text generalizing previous with
  | nil => rfl
  | cons c rest ih =>
    by_cases blank : isWhitespace c = true
    · have noDash : c ≠ '-' := by rintro rfl; exact absurd blank (by decide)
      have noSlash : c ≠ '/' := by rintro rfl; exact absurd blank (by decide)
      have skipped : hasExecutableSqlFrom {} false false previous (c :: rest) =
          hasExecutableSqlFrom {} false false (some c) rest := by
        rw [hasExecutableSqlFrom]
        simp [noDash, noSlash, blank]
      rw [skipped, trimStart, dropWhile_cons_of_pos blank, hasExecutableSqlFrom_code (some c),
        ← ih none, hasExecutableSqlFrom_code previous]
      rfl
    · rw [trimStart, dropWhile_cons_of_neg blank]

theorem isExecutable_blank {blank : Char} (h : isWhitespace blank = true) (text : Str) :
    isExecutable (text ++ [blank]) = isExecutable text := by
  have noBang : blank ≠ '!' := by rintro rfl; exact absurd h (by decide)
  fun_cases isExecutable text
  · rfl
  · rfl
  match text with
  | [] => simp [isExecutable, noBang]
  | [c] | c :: d :: rest => simp_all [isExecutable]

theorem hasExecutableSqlFrom_blank {blank : Char} (h : isWhitespace blank = true)
    (line block : Bool) (previous : Option Char) (text : Str) :
    hasExecutableSqlFrom {} line block previous (text ++ [blank]) =
      hasExecutableSqlFrom {} line block previous text := by
  have noDash : blank ≠ '-' := by rintro rfl; exact absurd h (by decide)
  have noStar : blank ≠ '*' := by rintro rfl; exact absurd h (by decide)
  have noSlash : blank ≠ '/' := by rintro rfl; exact absurd h (by decide)
  induction text generalizing line block previous with
  | nil =>
    cases line <;> cases block <;> simp [hasExecutableSqlFrom, h, noDash, noSlash]
  | cons c rest ih =>
    have ahead (d : Char) (other : blank ≠ d) :
        ((rest ++ [blank]).head? == some d) = (rest.head? == some d) := by
      cases rest <;> simp [other]
    have executed : rest.head? = some '*' → isMysqlExecutableCommentStart ('/' :: (rest ++ [blank])) =
        isMysqlExecutableCommentStart ('/' :: rest) := by
      intro star
      cases rest with
      | nil => cases star
      | cons d tail =>
        rw [some.inj star, cons_append, isMysqlExecutableCommentStart_eq,
          isMysqlExecutableCommentStart_eq, isExecutable_blank h]
    rw [cons_append, hasExecutableSqlFrom, hasExecutableSqlFrom]
    simp only [ih, ahead _ noDash, ahead _ noStar]
    by_cases opening : c = '/' ∧ rest.head? = some '*'
    · rw [opening.1, executed opening.2]
    · have closed : (c == '/' && rest.head? == some '*') = false := by simpa using opening
      simp [closed]

/-- A statement has as much to execute as the text it is trimmed from. -/
theorem hasExecutable_trim (text : Str) (comments : apart .code text = true) :
    hasExecutableSqlWithOptions (trim text) {} = showsCode .code text := by
  have atStart : Edge .code none text.head? := by simp [Edge]
  have read := hasExecutableSqlFrom_eq atStart comments rfl
  rw [← read, hasExecutableSqlWithOptions]
  simp only [inLine, inBlock]
  rw [← hasExecutableSqlFrom_trimStart none text, trim]
  generalize trimStart text = start
  induction start using reverseRecOn with
  | nil => rfl
  | append_singleton front last ih =>
    rw [trimEnd, rdropWhile_concat]
    split
    · next blank => rw [hasExecutableSqlFrom_blank blank, ← ih, trimEnd]
    · rfl

/-! ## Whole runs -/

/-- The statement of a segment, if it has something to execute. -/
def statement (segment : Str) : List Str :=
  if showsCode .code segment then [trim segment] else []

theorem emit_sql (mode : Mode) (previous : Option Char) (comments : apart .code buffer = true) :
    ((splitter mode previous buffer).emit (trim buffer)).map (·.sql) = statement buffer := by
  unfold emit statement
  rw [show (splitter mode previous buffer).options = {} from rfl, hasExecutable_trim buffer comments]
  split <;> rfl

/-- The turn at a top-level semicolon takes the statement. -/
theorem splitter_cut (rest : Str)
    (quiet : startsWithDelimiter (trimStart (lastLine buffer)) = false) :
    (splitter .code previous buffer).takeBranch tokenize ';'
        ((splitter .code previous buffer).branch ';' rest) =
      ((splitter .code (some ';') [], (splitter .code previous buffer).emit (trim buffer)), 0) := by
  have plain := dollarBranch_plain (splitter .code previous buffer) rest (by decide : ';' ≠ '$')
  have stays : (splitter .code previous buffer).branch ';' rest = .plain := by
    simp [splitter] at plain ⊢
    exact plain
  have line : (splitter .code previous buffer).onDelimiterLine = false := quiet
  have matched : (splitter .code previous buffer).matchChar tokenize ';' =
      (splitter .code previous buffer).pushCurrentStatement := by
    simp [semicolon, line]
    simp [splitter]
  rw [stays, takeBranch, plainChar, matched]
  simp [pushCurrentStatement, clear, splitter, checkDelimiter]

theorem finish_statement (quiet : startsWithDelimiter (trimStart (lastLine (trim buffer))) = false) :
    (splitter mode previous buffer).finishWithControl =
      (splitter mode previous buffer).emit (trim buffer) := by
  have none := parseDelimiterCommand_none ((startsWithDelimiter_trim _).trans quiet)
  simp [finishWithControl, finishPsql, splitter, none]

/-- The rest of a text, with the part of the current segment that stands in the buffer. -/
theorem scan_segments {text first : Str} {others : List Str} (edge : Edge mode previous text.head?)
    (comments : apart mode text = true) (noDollar : '$' ∉ text)
    (noBackslash : '\\' ∉ buffer ++ text) (quiet : QuietLines (buffer ++ text))
    (cut : segments mode text = first :: others)
    (heads : ∀ segment ∈ (buffer ++ first) :: others, startsWithDelimiter (trimStart segment) = false)
    (apartHeads : ∀ segment ∈ (buffer ++ first) :: others, apart .code segment = true) :
    ((splitter mode previous buffer).scan tokenize 0 text).2.map (·.sql) ++
        ((splitter mode previous buffer).scan tokenize 0 text).1.finish =
      statement (buffer ++ first) ++ others.flatMap statement := by
  induction text generalizing mode previous buffer first others with
  | nil =>
    rw [segments] at cut
    obtain ⟨rfl, rfl⟩ := cons.inj cut
    rw [append_nil] at heads apartHeads quiet ⊢
    -- trimming takes blanks from both ends of the buffer
    have parts : buffer.takeWhile isWhitespace ++ trim buffer ++
        (trimStart buffer).rtakeWhile isWhitespace = buffer := by
      rw [append_assoc, trim, trimEnd, rdropWhile_append_rtakeWhile]
      exact takeWhile_append_dropWhile
    have quietEnd := quiet
    rw [← parts] at quietEnd
    have headTrim : startsWithDelimiter (trimStart (trim buffer)) = false := by
      have whole : trim buffer ++ (trimStart buffer).rtakeWhile isWhitespace = trimStart buffer :=
        rdropWhile_append_rtakeWhile
      apply quiet_of_append
      rw [whole, trimStart, trimStart, dropWhile_idempotent]
      exact heads buffer mem_cons_self
    have finished := @finish_statement mode previous buffer (quietEnd.last headTrim)
    simp only [scan, map_nil, nil_append, flatMap_nil, append_nil, finish]
    rw [finished]
    exact emit_sql mode previous (apartHeads buffer mem_cons_self)
  | cons c rest ih =>
    obtain ⟨noSlash, noStar, later⟩ := apart_cons.mp comments
    have nextEdge := edge_after edge noSlash noStar
    have noDollarRest : '$' ∉ rest := fun member => noDollar (mem_cons_of_mem _ member)
    have quietLine : startsWithDelimiter (trimStart (lastLine buffer)) = false :=
      @QuietLines.last [] buffer (c :: rest) quiet (quiet_of_append (heads _ mem_cons_self))
    rw [scan]
    by_cases isCut : mode = .code ∧ c = ';'
    · obtain ⟨rfl, rfl⟩ := isCut
      rw [segments_cut] at cut
      injection cut with noFirst found
      subst noFirst
      obtain ⟨first', others', split⟩ := exists_cons_of_ne_nil (segments_ne_nil .code rest)
      rw [split] at found
      subst found
      rw [append_nil] at heads apartHeads ⊢
      have run := @ih .code (some ';') [] first' others' nextEdge later noDollarRest
        (fun member => noBackslash (mem_append_right _ (mem_cons_of_mem _ member)))
        (@QuietLines.suffix (buffer ++ [';']) rest (by simpa using quiet)) split
        (forall_mem_cons.mp heads).2
        (forall_mem_cons.mp apartHeads).2
      rw [splitter_cut tokenize rest quietLine]
      simp only [map_append, append_assoc]
      rw [emit_sql .code previous (apartHeads buffer mem_cons_self)]
      exact congrArg (statement buffer ++ ·) run
    · obtain ⟨first', others', split⟩ :=
        exists_cons_of_ne_nil (segments_ne_nil (mode.after c rest.head?) rest)
      rw [segments_keep isCut split] at cut
      injection cut with isFirst isOthers
      subst isFirst isOthers
      have moved : buffer ++ [c] ++ first' = buffer ++ c :: first' := by simp
      have movedText : buffer ++ [c] ++ rest = buffer ++ c :: rest := by simp
      have run := @ih _ (some c) (buffer ++ [c]) first' others' nextEdge later noDollarRest
        (movedText ▸ noBackslash) (movedText ▸ quiet) split (moved ▸ heads) (moved ▸ apartHeads)
      have step := splitter_step tokenize rest edge isCut
        (fun same => noDollar (same ▸ mem_cons_self))
        (fun member => noBackslash (mem_append_left _ member))
        (parseDelimiterCommand_none ((startsWithDelimiter_trim _).trans quietLine))
      rw [step]
      simp only [nil_append]
      rw [run, moved]

theorem flatMap_statement (texts : List Str) :
    texts.flatMap statement = (texts.filter (showsCode .code)).map trim := by
  induction texts with
  | nil => rfl
  | cons text texts ih =>
    rw [flatMap_cons, ih, filter_cons, statement]
    split <;> rfl

end Dbx.Guarantees.TopLevelCuts
