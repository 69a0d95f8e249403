import Dbx.Guarantees.ChunkIndependence

/-!
# Cuts that are not harmless

For every text that `cutOk` rejects before some continuation there is a continuation
on which streaming and whole-text splitting give different statements. Together with
`feed_flatten` this makes the cut condition exact: a cut after a text is harmless for
every continuation exactly when `cutOk` accepts it for every continuation.
-/
namespace Dbx.Guarantees.ChunkIndependence

open Dbx.Lib.Text Dbx.Source Dbx.Source.SqlStatementSplitter List Option

variable (tokenize : Tokenizer)

variable {ch : Char} {text tag before after delim rest : Str} {s : SqlStatementSplitter}

/-! ## Dollar tags -/

theorem nameChar_ne (h : nameChar ch = true) :
    ch ≠ '$' ∧ ch ≠ '-' ∧ ch ≠ '/' ∧ ch ≠ '*' ∧ ch ≠ '#' ∧ ordinary ch = true := by
  refine ⟨?_, ?_, ?_, ?_, ?_, ?_⟩
  iterate 5
    · rintro rfl
      revert h
      decide
  · simp only [ordinary, Bool.and_eq_true, bne_iff_ne, ne_eq]
    refine ⟨⟨⟨⟨?_, ?_⟩, ?_⟩, ?_⟩, ?_⟩
    all_goals
      rintro rfl
      revert h
      decide

/-- A tag that is cut after its first characters: what stands before and after the cut. -/
theorem isTag_split (tagged : IsTag tag) (pre : tag <+: ch :: (before ++ after))
    (long : before.length + 1 < tag.length) :
    ch = '$' ∧ before.all nameChar = true ∧
      ∃ name : Str, tag = '$' :: (before ++ (name ++ ['$'])) ∧ name.all nameChar = true := by
  obtain ⟨name, rfl, all⟩ := tagged
  obtain ⟨rfl, inner⟩ := cons_prefix_cons.mp pre
  have short : before.length ≤ name.length := by
    simp only [length_cons, length_append, length_nil] at long
    omega
  have inside : before <+: name := by
    have h1 : before <+: name ++ ['$'] :=
      prefix_of_prefix_length_le (prefix_append before after) inner (by simp; omega)
    exact prefix_of_prefix_length_le h1 (prefix_append name _) short
  obtain ⟨name, rfl⟩ := inside
  rw [all_append, Bool.and_eq_true] at all
  exact ⟨rfl, all.1, name, by simp, all.2⟩

/-! ## Reached states -/

/-- What every state inside a scan satisfies. -/
structure Reached (s : SqlStatementSplitter) : Prop where
  commands : s.options.supportsCustomDelimiterCommands = true
  settled : s.pendingMysqlLineCommentDashes = false
  delimiter : ∀ delim, s.customDelimiter = some delim → delim ≠ []
  inDollar : ∀ tag, s.dollarQuoteTag = some tag → IsTag tag ∧ s.inLineComment = false ∧
    s.inBlockComment = false ∧ s.quoted = false ∧ s.customDelimiter = none

theorem reached_withOptions {options : SqlDialectProfile}
    (commands : options.supportsCustomDelimiterCommands = true) :
    Reached (withOptions options) where
  commands := commands
  settled := rfl
  delimiter := fun _ h => by cases h
  inDollar := fun _ h => by cases h

variable {line : Str}

theorem parseDelimiterCommand_ne_nil (h : parseDelimiterCommand line = some delim) :
    delim ≠ [] := by
  unfold parseDelimiterCommand at h
  split at h
  · simp only at h
    split at h
    · cases h
    next nonempty =>
      rintro rfl
      rw [some.inj h] at nonempty
      exact nonempty rfl
  · cases h

theorem delimiterCommand_eq (h : s.delimiterCommand line = some delim) :
    parseDelimiterCommand line = some delim := by
  unfold delimiterCommand at h
  split at h
  · exact h
  · cases h

/-- What the arms of `match ch` and the delimiter check leave alone. -/
structure SameSetting (s t : SqlStatementSplitter) : Prop where
  dollarQuoteTag : t.dollarQuoteTag = s.dollarQuoteTag
  customDelimiter : t.customDelimiter = s.customDelimiter
  options : t.options = s.options

variable {s : SqlStatementSplitter} {name statement : Str}

theorem semicolon_frame : SameSetting s (s.semicolon tokenize).1 := by
  unfold semicolon
  split_ifs <;> exact ⟨rfl, rfl, rfl⟩

theorem matchChar_frame (s : SqlStatementSplitter) (ch : Char) :
    SameSetting s (s.matchChar tokenize ch).1 := by
  unfold matchChar
  split_ifs <;> first | exact ⟨rfl, rfl, rfl⟩ | exact semicolon_frame tokenize

theorem checkDelimiter_frame (s : SqlStatementSplitter) (ch : Char) :
    SameSetting s (s.checkDelimiter ch).1 := by
  unfold checkDelimiter
  split
  · split <;> exact ⟨rfl, rfl, rfl⟩
  · exact ⟨rfl, rfl, rfl⟩

/-- A plain character leaves dollar quoting alone, and a new delimiter is not empty. -/
theorem plainChar_frame (ch : Char)
    (nonempty : ∀ delim, s.customDelimiter = some delim → delim ≠ []) :
    (s.plainChar tokenize ch).1.dollarQuoteTag = s.dollarQuoteTag ∧
      (s.plainChar tokenize ch).1.options = s.options ∧
      ∀ delim, (s.plainChar tokenize ch).1.customDelimiter = some delim → delim ≠ [] := by
  have matched := matchChar_frame tokenize s ch
  have kept (delim : Str) (h : (s.matchChar tokenize ch).1.customDelimiter = some delim) :
      delim ≠ [] := nonempty delim (matched.customDelimiter ▸ h)
  simp only [plainChar]
  split
  · exact ⟨matched.dollarQuoteTag, matched.options, kept⟩
  split
  next s'' out command =>
    split at command
    · rcases lineCommand_cases command with ⟨_, _, eq⟩ | ⟨_, _, eq⟩ | ⟨d, hd, eq⟩
      all_goals obtain ⟨rfl, -⟩ := Prod.mk.inj eq
      · exact ⟨matched.dollarQuoteTag, matched.options, kept⟩
      · exact ⟨matched.dollarQuoteTag, matched.options, kept⟩
      · refine ⟨matched.dollarQuoteTag, matched.options, fun delim h => ?_⟩
        split at h
        · cases h
        · exact some.inj h ▸ parseDelimiterCommand_ne_nil (delimiterCommand_eq hd)
    · cases command
  next =>
    have checked := checkDelimiter_frame (s.matchChar tokenize ch).1 ch
    exact ⟨checked.dollarQuoteTag.trans matched.dollarQuoteTag,
      checked.options.trans matched.options,
      fun delim h => kept delim (checked.customDelimiter ▸ h)⟩

/-- Where the loop opens a dollar quote. -/
theorem branch_dollarOpen (h : s.branch ch rest = .dollarOpen tag) :
    inCode s = true ∧ s.customDelimiter = none ∧ s.onDelimiterLine = false ∧
      s.options.supportsDollarQuotedStrings = true ∧ dollarQuoteTagAt (ch :: rest) = some tag := by
  unfold branch at h
  split at h
  · split at h <;> cases h
  next outside =>
    split at h
    next branch comment =>
      subst h
      unfold commentBranch at comment
      split_ifs at comment <;> simp at comment
    next comment =>
      have code : inCode s = true := by
        unfold commentBranch at comment
        split_ifs at comment
        simp_all [inCode]
      unfold dollarBranch at h
      split at h
      next tag' found =>
        split at h
        next opens =>
          cases h
          split at found
          next supports =>
            simp only [Bool.and_eq_true, isNone_iff_eq_none, Bool.not_eq_true'] at opens
            exact ⟨code, opens.1, opens.2, supports, found⟩
          next => cases found
        next => cases h
      next => cases h

theorem branch_dollarClose (h : s.branch ch rest = .dollarClose tag) :
    s.dollarQuoteTag = some tag ∧ tag <+: ch :: rest := by
  unfold branch at h
  split at h
  next tag' inside =>
    split at h
    next closes =>
      cases h
      exact ⟨inside, isPrefixOf_iff_prefix.mp closes⟩
    next => cases h
  · split at h
    next branch comment =>
      subst h
      unfold commentBranch at comment
      split_ifs at comment <;> simp at comment
    next =>
      unfold dollarBranch at h
      split at h
      · split at h <;> cases h
      · cases h

theorem branch_inDollar (ch : Char) (rest : Str) (inside : s.dollarQuoteTag = some tag) :
    s.branch ch rest = .dollarClose tag ∨ s.branch ch rest = .dollarBody := by
  simp only [branch, inside]
  split
  · exact .inl rfl
  · exact .inr rfl

attribute [local simp] takeBranch pushText_eq

theorem reached_takeBranch (reached : Reached s) (ch : Char) (rest : Str)
    (hb : s.branch ch rest ≠ .pendingDashes) :
    Reached (s.takeBranch tokenize ch (s.branch ch rest)).1.1 := by
  have settled := takeBranch_pending tokenize s ch _ reached.settled hb
  have outside (h1 : ∀ tag, s.branch ch rest ≠ .dollarClose tag)
      (h2 : s.branch ch rest ≠ .dollarBody) : s.dollarQuoteTag = none := by
    cases inside : s.dollarQuoteTag with
    | none => rfl
    | some tag =>
      rcases branch_inDollar ch rest inside with h | h
      · exact absurd h (h1 tag)
      · exact absurd h h2
  cases h : s.branch ch rest with
  | pendingDashes => exact absurd h hb
  | dollarClose tag =>
    rw [h] at settled
    refine ⟨?_, settled, ?_, fun tag' h' => by simp at h'⟩
    · simpa using reached.commands
    · simpa using reached.delimiter
  | dollarBody => exact ⟨reached.commands, reached.settled, reached.delimiter, reached.inDollar⟩
  | dollarOpen tag =>
    rw [h] at settled
    obtain ⟨code, noDelimiter, -, -, found⟩ := branch_dollarOpen h
    obtain ⟨-, noLine, noBlock, noQuote⟩ := (inCode_iff s).mp code
    refine ⟨?_, settled, ?_, ?_⟩
    · simpa using reached.commands
    · simpa using reached.delimiter
    · intro tag' h'
      simp only [takeBranch, some.injEq] at h'
      subst h'
      refine ⟨(dollarQuoteTagAt_iff.mp found).1.isTag, ?_⟩
      simp only [takeBranch, pushText_eq]
      exact ⟨noLine, noBlock, noQuote, noDelimiter⟩
  | plain =>
    have none_ := outside (by simp [h]) (by simp [h])
    have frame := plainChar_frame tokenize ch reached.delimiter
    rw [h] at settled
    refine ⟨by rw [takeBranch, frame.2.1, reached.commands], settled, frame.2.2, fun tag h' => ?_⟩
    simp only [takeBranch, frame.1.trans none_] at h'
    cases h'
  | lineCommentBody | blockCommentBody | lineCommentOpen | blockCommentOpen =>
    have none_ := outside (by simp [h]) (by simp [h])
    refine ⟨reached.commands, reached.settled, reached.delimiter, fun tag h' => ?_⟩
    simp only [takeBranch, pushChar_dollarQuoteTag, none_] at h'
    cases h'

/-! ## Runs over text without effect -/

/-- A character that is only pushed in code, whatever stands around it. -/
def inert (ch : Char) : Bool :=
  ordinary ch && ch != '-' && ch != '*' && ch != '#' && ch != '/' && ch != '$'

theorem inert_of_nameChars (named : name.all nameChar = true) : name.all inert = true := by
  rw [List.all_eq_true] at named ⊢
  intro ch member
  obtain ⟨h1, h2, h3, h4, h5, h6⟩ := nameChar_ne (named ch member)
  simp [inert, h1, h2, h3, h4, h5, h6]

/-- The custom delimiter, if any, does not end in `ch`. -/
def DelimiterAvoids (s : SqlStatementSplitter) (ch : Char) : Prop :=
  ∀ delim, s.customDelimiter = some delim → delim ≠ [] ∧ delim.getLast? ≠ some ch

theorem completesDelimiter_of_avoids (avoids : DelimiterAvoids s ch) :
    completesDelimiter s ch = false := by
  unfold completesDelimiter
  cases hd : s.customDelimiter with
  | none => rfl
  | some delim =>
    obtain ⟨nonempty, last⟩ := avoids delim hd
    rw [any_some, ← Bool.not_eq_true, isSuffixOf_iff_suffix]
    rintro ⟨front, eq⟩
    have : delim.getLast? = (front ++ delim).getLast? := by
      rw [getLast?_append_of_ne_nil _ nonempty]
    rw [eq, getLast?_append_of_ne_nil _ (by simp)] at this
    exact last (by simpa using this)

theorem branch_plain_of (code : inCode s = true)
    (quiet : ch ≠ '-' ∧ ch ≠ '*' ∧ ch ≠ '#' ∧ ¬ (ch = '/' ∧ rest.head? = some '*'))
    (noTag : dollarQuoteTagAt (ch :: rest) = none) : s.branch ch rest = .plain := by
  obtain ⟨outside, noLine, noBlock, noQuote⟩ := (inCode_iff s).mp code
  have noSlash : (ch == '/' && rest.head? == some '*') = false := by simpa using quiet.2.2.2
  simp only [branch, outside, commentBranch, noLine, noBlock, noQuote]
  simp [quiet, noSlash, dollarBranch, noTag]

/-- In code a plain ordinary character moves the scan on by one. -/
theorem scan_push (plain : s.branch ch rest = .plain) (hch : ordinary ch = true)
    (code : inCode s = true) (open_ : completesDelimiter s ch = false) :
    scan tokenize s 0 (ch :: rest) = scan tokenize (s.pushChar ch) 0 rest := by
  have pushed := plainChar_ordinary tokenize s ch hch ((inCode_iff s).mp code).2.2.2 open_
  simp [scan, plain, pushed]

variable (text : Str)

theorem scan_inert (rest : Str) (all : text.all inert = true) (code : inCode s = true)
    (avoids : ∀ ch, inert ch = true → DelimiterAvoids s ch) :
    scan tokenize s 0 (text ++ rest) = scan tokenize (s.pushText text) 0 rest := by
  induction text generalizing s with
  | nil => rfl
  | cons ch text ih =>
    rw [all_cons, Bool.and_eq_true] at all
    have hch := all.1
    simp only [inert, Bool.and_eq_true, bne_iff_ne, ne_eq] at hch
    obtain ⟨⟨⟨⟨⟨h1, h2⟩, h3⟩, h4⟩, h5⟩, h6⟩ := hch
    have noTag : dollarQuoteTagAt (ch :: (text ++ rest)) = none := by
      unfold dollarQuoteTagAt
      split
      next eq => simp_all
      next => rfl
    have plain : s.branch ch (text ++ rest) = .plain :=
      branch_plain_of code ⟨h2, h3, h4, fun h => h5 h.1⟩ noTag
    rw [cons_append,
      scan_push tokenize plain h1 code (completesDelimiter_of_avoids (avoids ch all.1))]
    exact ih all.2 code avoids

/-! ## A continuation that tells code from a dollar quote -/

/-- The statements of a scan followed by `finish`. -/
def outputs (r : Emitting) : List Str := (r.2 ++ r.1.finishWithControl).map (·.sql)

theorem emit_length_le : (s.emit statement).length ≤ 1 := by
  unfold emit
  split <;> simp

theorem finish_length_le (s : SqlStatementSplitter) : s.finishWithControl.length ≤ 1 := by
  unfold finishWithControl
  simp only
  split
  · exact emit_length_le
  split
  · exact emit_length_le
  · split
    · split <;> exact emit_length_le
    · exact emit_length_le

/-- In code it sets a delimiter and then uses it; in a dollar quote it is text. -/
def probe : Str := "\nDELIMITER //\n1//2".toList

/-- A code state at the start of a line whose delimiter, if any, ends in a dollar sign. -/
structure AtLineStart (s : SqlStatementSplitter) : Prop where
  code : inCode s = true
  line : lastLine s.buffer = []
  delimiter : ∀ delim, s.customDelimiter = some delim → delim.getLast? = some '$'
  commands : s.options.supportsCustomDelimiterCommands = true

theorem AtLineStart.avoids (h : AtLineStart s) (hch : ch ≠ '$') : DelimiterAvoids s ch := by
  intro delim hd
  have last := h.delimiter delim hd
  refine ⟨?_, ?_⟩
  · rintro rfl
    cases last
  · rw [last]
    simpa using hch.symm

theorem parseDelimiterCommand_getLast? {c : Char} (h : parseDelimiterCommand line = some delim)
    (last : line.getLast? = some c) (hc : isWhitespace c = false) : delim.getLast? = some c := by
  unfold parseDelimiterCommand at h
  split at h
  next long =>
    simp only [Bool.and_eq_true, decide_eq_true_eq] at long
    simp only at h
    split at h
    · cases h
    rw [← some.inj h]
    refine getLast?_trim ?_ hc
    rw [getLast?_drop, if_neg (by omega)]
    exact last
  next => cases h

theorem plainChar_newline (code : s.quoted = false) : s.plainChar tokenize '\n' =
      ((s.keep '\n').lineCommand).getD ((s.keep '\n').checkDelimiter '\n') := by
  have matched : s.matchChar tokenize '\n' = (s.keep '\n', []) := by simp [matchChar]
  have still : (s.keep '\n').quoted = false := code
  simp only [plainChar, matched, still, Bool.false_eq_true, if_false, beq_self_eq_true, if_true,
    nil_append]
  cases (s.keep '\n').lineCommand <;> rfl

/-- A code state without a delimiter of its own, where commands can set one. -/
structure OpenCode (s : SqlStatementSplitter) : Prop where
  code : inCode s = true
  noDelimiter : s.customDelimiter = none
  commands : s.options.supportsCustomDelimiterCommands = true

theorem OpenCode.pushText (h : OpenCode s) (text : Str) : OpenCode (s.pushText text) := by
  rw [pushText_eq]
  exact ⟨h.code, h.noDelimiter, h.commands⟩

theorem OpenCode.avoids (h : OpenCode s) (ch : Char) : DelimiterAvoids s ch := by
  intro delim set
  rw [h.noDelimiter] at set
  cases set

attribute [local simp] keep

/-- A line feed after a dollar sign, whatever the line was, leaves a code state at a line start. -/
theorem scan_newline_after_dollar (ready : OpenCode s)
    (last : s.buffer.getLast? = some '$') : ∃ s' out, AtLineStart s' ∧ scan tokenize s 0 ('\n' :: rest) =
      ((scan tokenize s' 0 rest).1, out ++ (scan tokenize s' 0 rest).2) := by
  obtain ⟨code, noDelimiter, commands⟩ := ready
  have plain : s.branch '\n' rest = .plain := branch_plain_of code (by simp) rfl
  have quoted := ((inCode_iff s).mp code).2.2.2
  have line := plainChar_newline tokenize quoted
  have turn (r : Emitting) (h : s.plainChar tokenize '\n' = r) (ready : AtLineStart r.1) :
      ∃ s' out, AtLineStart s' ∧ scan tokenize s 0 ('\n' :: rest) =
        ((scan tokenize s' 0 rest).1, out ++ (scan tokenize s' 0 rest).2) :=
    ⟨r.1, r.2, ready, by simp only [scan, plain, takeBranch, h]⟩
  have front : (s.keep '\n').buffer.dropLast = s.buffer := by simp
  cases command : (s.keep '\n').lineCommand with
  | none =>
    rw [command, getD_none, checkDelimiter_open _ _ (by simp [noDelimiter])] at line
    exact turn _ line
      ⟨code, by simp [lastLine_append_newline], by simp [noDelimiter], commands⟩
  | some r =>
    rw [command, getD_some] at line
    refine turn r line ?_
    rcases lineCommand_cases command with ⟨_, _, rfl⟩ | ⟨_, _, rfl⟩ | ⟨delim, hd, rfl⟩
    · exact ⟨code, lastLine_beforeLastLine _, by simp [noDelimiter], commands⟩
    · exact ⟨code, rfl, by simp [clear, noDelimiter], commands⟩
    · refine ⟨code, rfl, fun d h => ?_, commands⟩
      split at h
      · cases h
      rw [← some.inj h]
      rw [front] at hd
      exact parseDelimiterCommand_getLast? (delimiterCommand_eq hd)
        (getLast?_trim (getLast?_lastLine last (by decide)) (by decide)) (by decide)

/-- The state after the delimiter has ended a statement. -/
def cleared (s : SqlStatementSplitter) (ch : Char) : SqlStatementSplitter :=
  { s.clear with pendingMysqlLineCommentDashes := false, previous := some ch }

theorem plainChar_delimiter (ch : Char) (hch : ordinary ch = true) (code : s.quoted = false)
    (hd : s.customDelimiter = some delim) (suffix : delim.isSuffixOf (s.buffer ++ [ch]) = true) :
    s.plainChar tokenize ch =
      (cleared s ch, s.emit (trim ((s.buffer ++ [ch]).take ((s.buffer ++ [ch]).length - delim.length)))) := by
  have kept : (s.keep ch).customDelimiter = some delim := hd
  have buffer : (s.keep ch).buffer = s.buffer ++ [ch] := rfl
  rw [plainChar_kept tokenize s ch hch code]
  simp only [checkDelimiter, kept, buffer, suffix, if_true]
  simp only [cleared, pushCurrentStatement, clear, keep, hd]
  rfl

theorem hasExecutable_cons (ch : Char) (rest : Str) (options : SqlDialectProfile)
    (shown : ch ≠ '-' ∧ ch ≠ '#' ∧ ch ≠ '/' ∧ isWhitespace ch = false) :
    hasExecutableSqlWithOptions (ch :: rest) options = true := by
  simp [hasExecutableSqlWithOptions, hasExecutableSqlFrom, shown]

/-- Where the last line is no command and no delimiter, `finish` emits the buffer. -/
theorem finish_eq_emit {c : Char}
    (noPsql : parseIgnorablePsqlControlCommand (trim (lastLine (trim s.buffer))) = none)
    (noDelim : parseDelimiterCommand (trim (lastLine (trim s.buffer))) = none)
    (noSlash : trim (lastLine (trim s.buffer)) ≠ ['/']) (last : s.buffer.getLast? = some c)
    (avoids : DelimiterAvoids s c) :
    s.finishWithControl = s.emit (trim s.buffer) := by
  have psql : s.finishPsql = s := by
    unfold finishPsql
    split
    · rw [noPsql]
    · rfl
  unfold finishWithControl
  simp only [psql]
  rw [if_neg (by simp [noDelim]), if_neg (by simp [noSlash])]
  split
  next delim hd =>
    obtain ⟨front, eq⟩ := getLast?_eq_some_iff.mp last
    have open_ : completesDelimiter { s with buffer := front } c = false :=
      completesDelimiter_of_avoids avoids
    simp only [completesDelimiter, hd, any_some, ← eq] at open_
    rw [if_neg (by simp [open_])]
  next => rfl

/-- With the delimiter set, the rest of the probe is two statements. -/
theorem probe_tail (code : inCode s = true) (hd : s.customDelimiter = some ['/', '/'])
    (empty : s.buffer = []) :
    outputs (scan tokenize s 0 ['1', '/', '/', '2']) = [['1'], ['2']] := by
  have one := hasExecutable_cons '1' [] s.options (by decide)
  have two := hasExecutable_cons '2' [] s.options (by decide)
  have trimOne : trim ['1'] = ['1'] := by decide
  have trimTwo : trim ['2'] = ['2'] := by decide
  have first : scan tokenize s 0 ['1', '/', '/', '2'] =
      scan tokenize (s.pushChar '1') 0 ['/', '/', '2'] :=
    scan_push tokenize (branch_plain_of code (by decide) rfl)
      (by decide) code (by simp [completesDelimiter, hd, empty]; decide)
  have second : scan tokenize (s.pushChar '1') 0 ['/', '/', '2'] =
      scan tokenize ((s.pushChar '1').pushChar '/') 0 ['/', '2'] :=
    scan_push tokenize (branch_plain_of code (by decide) rfl)
      (by decide) code (by simp [completesDelimiter, hd, empty]; decide)
  -- The second slash completes the delimiter.
  let t : SqlStatementSplitter :=
    { s.clear with pendingMysqlLineCommentDashes := false, previous := some '/' }
  have third : scan tokenize ((s.pushChar '1').pushChar '/') 0 ['/', '2'] =
      ((scan tokenize t 0 ['2']).1, ⟨['1'], s.stopOnError⟩ :: (scan tokenize t 0 ['2']).2) := by
    have plain : ((s.pushChar '1').pushChar '/').branch '/' ['2'] = .plain :=
      branch_plain_of code (by decide) rfl
    have turn := plainChar_delimiter tokenize (s := (s.pushChar '1').pushChar '/') '/'
      (by decide) ((inCode_iff s).mp code).2.2.2 hd (by simp [empty])
    have emitted : ((s.pushChar '1').pushChar '/').emit ['1'] = [⟨['1'], s.stopOnError⟩] := by
      simp [emit, one]
    simp only [scan, plain, takeBranch, turn]
    simp only [pushChar_buffer, empty, nil_append, cons_append, length_cons,
      length_nil, Nat.reduceAdd, Nat.reduceSub, take_succ_cons, take_zero, trimOne,
      emitted]
    rfl
  have avoids : DelimiterAvoids t '2' := by
    intro delim h
    obtain rfl : ['/', '/'] = delim := some.inj (hd.symm.trans h)
    decide
  have fourth : scan tokenize t 0 ['2'] = (t.pushChar '2', []) :=
    scan_push tokenize (branch_plain_of code (by decide) rfl)
      (by decide) code (completesDelimiter_of_avoids avoids)
  have finished : (t.pushChar '2').finishWithControl = [⟨['2'], s.stopOnError⟩] := by
    have buffer : (t.pushChar '2').buffer = ['2'] := rfl
    rw [finish_eq_emit (s := t.pushChar '2') (c := '2') (by rw [buffer]; decide) (by rw [buffer]; decide)
      (by rw [buffer]; decide) rfl avoids, buffer, trimTwo, emit]
    exact if_pos two
  rw [first, second, third, fourth, outputs, finished]
  rfl

theorem outputs_append (out : List SqlStatementWithControl) (r : Emitting) :
    outputs (r.1, out ++ r.2) = out.map (·.sql) ++ outputs r := by
  simp [outputs]

/-- The `DELIMITER` line of the probe takes effect at a line start. -/
theorem lineCommand_delimiter (line : lastLine s.buffer = [])
    (commands : s.options.supportsCustomDelimiterCommands = true) :
    ∃ out, ((s.pushText "DELIMITER //".toList).keep '\n').lineCommand =
      some ({ (s.pushText "DELIMITER //".toList).keep '\n' |>.clear with
        customDelimiter := some ['/', '/'] }, out) := by
  have front : ((s.pushText "DELIMITER //".toList).keep '\n').buffer.dropLast =
      s.buffer ++ "DELIMITER //".toList := by
    simp
  have last : trim (lastLine (s.buffer ++ "DELIMITER //".toList)) = "DELIMITER //".toList := by
    rw [lastLine_append _ (by decide), line]
    decide
  have noPsql : ((s.pushText "DELIMITER //".toList).keep '\n').psqlCommand
      "DELIMITER //".toList = none := by
    unfold psqlCommand
    split
    · decide
    · rfl
  have delimiter : ((s.pushText "DELIMITER //".toList).keep '\n').delimiterCommand
      "DELIMITER //".toList = some ['/', '/'] := by
    unfold delimiterCommand
    rw [if_pos (by simpa using commands)]
    decide
  unfold lineCommand
  simp only [front, last, noPsql, delimiter]
  rw [if_neg (by simp)]
  exact ⟨_, rfl⟩

theorem probe_newline {out : List SqlStatementWithControl} (code : inCode s = true)
    (command : (s.keep '\n').lineCommand =
      some ({ (s.keep '\n').clear with customDelimiter := some ['/', '/'] }, out)) :
    2 ≤ (outputs (scan tokenize s 0 ('\n' :: ['1', '/', '/', '2']))).length := by
  have plain : s.branch '\n' ['1', '/', '/', '2'] = .plain :=
    branch_plain_of code (by decide) rfl
  have turn := plainChar_newline tokenize ((inCode_iff s).mp code).2.2.2
  rw [command, getD_some] at turn
  have tail := probe_tail tokenize
    (s := { (s.keep '\n').clear with customDelimiter := some ['/', '/'] }) code rfl rfl
  rw [scan]
  simp only [plain, takeBranch, turn, outputs_append, tail]
  simp

theorem inCode_pushText (s : SqlStatementSplitter) (text : Str) :
    inCode (s.pushText text) = inCode s := by
  rw [pushText_eq]
  rfl

theorem resolvePending_pushText (reached : Reached s) (text : Str) (next : Option Char) :
    (s.pushText text).resolvePending next = s.pushText text :=
  resolvePending_eq_self _ _ (by rw [pushText_eq]; exact reached.settled)

theorem pushText_inDollar (inside : s.dollarQuoteTag = some tag) (text : Str) :
    (s.pushText text).dollarQuoteTag = some tag := by
  rw [pushText_eq]
  exact inside

theorem probe_lineStart (ready : AtLineStart s) :
    2 ≤ (outputs (scan tokenize s 0 "DELIMITER //\n1//2".toList)).length := by
  have code (text : Str) : inCode (s.pushText text) = true := by
    rw [inCode_pushText, ready.code]
  have slash (text rest : Str) (h : rest.head? ≠ some '*') :
      scan tokenize (s.pushText text) 0 ('/' :: rest) =
        scan tokenize (s.pushText (text ++ ['/'])) 0 rest := by
    have avoids : DelimiterAvoids (s.pushText text) '/' := by
      rw [pushText_eq]
      exact ready.avoids (by decide)
    have step : s.pushText (text ++ ['/']) = (s.pushText text).pushChar '/' := by
      simp [pushText]
    rw [step]
    exact scan_push tokenize
      (branch_plain_of (code text) (by simpa using h) rfl)
      (by decide) (code text) (completesDelimiter_of_avoids avoids)
  obtain ⟨out, command⟩ := lineCommand_delimiter ready.line ready.commands
  have text : "DELIMITER //\n1//2".toList =
      "DELIMITER ".toList ++ '/' :: '/' :: '\n' :: ['1', '/', '/', '2'] := by decide
  rw [text, scan_inert tokenize _ _ (by decide) ready.code
    (fun ch h => ready.avoids (by rintro rfl; revert h; decide)), slash _ _ (by decide),
    slash _ _ (by decide)]
  exact probe_newline tokenize (code _) command

/-- In code the probe makes at least two statements. -/
theorem probe_code (ready : OpenCode s) (last : s.buffer.getLast? = some '$') :
    2 ≤ (outputs (scan tokenize s 0 probe)).length := by
  obtain ⟨s', out, ready, eq⟩ := scan_newline_after_dollar tokenize
    ready last
  change 2 ≤ (outputs (scan tokenize s 0 ('\n' :: "DELIMITER //\n1//2".toList))).length
  rw [eq, outputs_append, length_append]
  exact Nat.le_add_left_of_le (probe_lineStart tokenize ready)

/-! ## Runs inside a dollar quote -/

theorem scan_dollarBody_cons (ch : Char) (rest : Str) (inside : s.dollarQuoteTag = some tag)
    (open_ : ¬ tag <+: ch :: rest) :
    scan tokenize s 0 (ch :: rest) = scan tokenize (s.pushChar ch) 0 rest := by
  have body : s.branch ch rest = .dollarBody := by
    simp only [branch, inside]
    rw [if_neg (by rwa [ isPrefixOf_iff_prefix])]
  simp [scan, body]

theorem scan_dollarBody (rest : Str) (tagged : IsTag tag) (inside : s.dollarQuoteTag = some tag)
    (free : '$' ∉ text) :
    scan tokenize s 0 (text ++ rest) = scan tokenize (s.pushText text) 0 rest := by
  induction text generalizing s with
  | nil => rfl
  | cons ch text ih =>
    simp only [mem_cons, not_or] at free
    have open_ : ¬ tag <+: ch :: (text ++ rest) := by
      obtain ⟨name, rfl, -⟩ := tagged
      exact fun h => free.1 (cons_prefix_cons.mp h).1
    rw [cons_append, scan_dollarBody_cons tokenize ch _ inside open_]
    exact ih inside free.2

/-- In a dollar quote the probe is text: at most one statement comes out. -/
theorem probe_dollar (tagged : IsTag tag) (inside : s.dollarQuoteTag = some tag) :
    (outputs (scan tokenize s 0 probe)).length ≤ 1 := by
  have run := scan_dollarBody tokenize probe [] tagged inside (by decide)
  rw [append_nil] at run
  rw [run, scan, outputs, nil_append, length_map]
  exact finish_length_le _

theorem scan_skip (s : SqlStatementSplitter) (text rest : Str) :
    scan tokenize s text.length (text ++ rest) = scan tokenize s 0 rest := by
  induction text with
  | nil => rfl
  | cons ch text ih => exact ih

theorem not_mem_of_nameChars (all : name.all nameChar = true) : '$' ∉ name :=
  fun h => (nameChar_ne (all_eq_true.mp all _ h)).1 rfl

/-! ## The two splits of a text that is cut -/

/-- The statements when the text after the cut comes as a chunk of its own. -/
def cutOutputs (s : SqlStatementSplitter) (skip : Nat) (before after : Str) : List Str :=
  let r := scan tokenize s skip before
  r.2.map (·.sql) ++ outputs (scan tokenize (r.1.resolvePending after.head?) 0 after)

/-- Some continuation of `before` is split differently when it comes as a new chunk. -/
def Diverges (s : SqlStatementSplitter) (skip : Nat) (before : Str) : Prop :=
  ∃ after, outputs (scan tokenize s skip (before ++ after)) ≠ cutOutputs tokenize s skip before after

attribute [local simp] commentBranch

theorem branch_eq_dollarOpen (code : inCode s = true) (noDelimiter : s.customDelimiter = none)
    (offLine : s.onDelimiterLine = false) (supports : s.options.supportsDollarQuotedStrings = true)
    (found : dollarQuoteTagAt ('$' :: rest) = some tag) : s.branch '$' rest = .dollarOpen tag := by
  obtain ⟨outside, noLine, noBlock, noQuote⟩ := (inCode_iff s).mp code
  have comment : s.commentBranch '$' rest.head? = none := by
    simp [noLine, noBlock, noQuote]
  simp only [branch, outside, comment, dollarBranch, supports, if_true, found, noDelimiter, offLine]
  rfl

/-- A dollar sign that opens no tag, and the name after it, are ordinary text. -/
theorem scan_dollar_name (name rest : Str) (ready : OpenCode s) (named : name.all nameChar = true)
    (noTag : dollarQuoteTagAt ('$' :: (name ++ rest)) = none) :
    scan tokenize s 0 ('$' :: (name ++ rest)) = scan tokenize (s.pushText ('$' :: name)) 0 rest := by
  have plain : s.branch '$' (name ++ rest) = .plain :=
    branch_plain_of ready.code (by simp) noTag
  rw [scan_push tokenize plain (by decide) ready.code (completesDelimiter_of_avoids (ready.avoids _))]
  exact scan_inert tokenize name rest (inert_of_nameChars named) ready.code fun ch _ => ready.avoids ch

/-- An opening tag is consumed in one turn. -/
theorem scan_dollarOpen {body : Str}
    (opens : s.branch '$' (body ++ rest) = .dollarOpen ('$' :: body)) :
    ∃ t, t.dollarQuoteTag = some ('$' :: body) ∧
      scan tokenize s 0 ('$' :: (body ++ rest)) = scan tokenize t 0 rest := by
  refine ⟨(s.takeBranch tokenize '$' (.dollarOpen ('$' :: body))).1.1, rfl, ?_⟩
  rw [scan]
  simp only [opens]
  have consumed : (s.takeBranch tokenize '$' (.dollarOpen ('$' :: body))).2 = body.length := by
    simp
  rw [consumed, scan_skip]
  rfl

/-- Text that is quoted in one piece and code when cut. -/
theorem diverges_of_lengths (after : Str)
    (lengths : (outputs (scan tokenize s 0 (before ++ after))).length ≤ 1 ∧
        2 ≤ (cutOutputs tokenize s 0 before after).length ∨
      2 ≤ (outputs (scan tokenize s 0 (before ++ after))).length ∧
        (cutOutputs tokenize s 0 before after).length ≤ 1) : Diverges tokenize s 0 before := by
  refine ⟨after, fun same => ?_⟩
  rw [same] at lengths
  omega

/-- The rest of a cut tag and the probe, in code. -/
theorem probe_after_name (ready : OpenCode s) (named : name.all nameChar = true) :
    2 ≤ (outputs (scan tokenize s 0 (name ++ '$' :: probe))).length := by
  have run : scan tokenize s 0 (name ++ '$' :: probe) =
      scan tokenize ((s.pushText name).pushText ['$']) 0 probe := by
    rw [scan_inert tokenize name _ (inert_of_nameChars named) ready.code fun ch _ => ready.avoids ch]
    exact scan_dollar_name tokenize [] probe (ready.pushText name) rfl rfl
  rw [run]
  exact probe_code tokenize ((ready.pushText name).pushText _) (by simp)

/-- A tag cut in two: the quote is not opened. -/
theorem diverges_of_open (reached : Reached s)
    (opens : s.branch ch (before ++ after) = .dollarOpen tag)
    (long : before.length + 1 < tag.length) : ch = '$' ∧ Diverges tokenize s 0 (ch :: before) := by
  obtain ⟨code, noDelimiter, offLine, supports, found⟩ := branch_dollarOpen opens
  have tagged := (dollarQuoteTagAt_iff.mp found).1.isTag
  obtain ⟨rfl, beforeName, name, rfl, restName⟩ :=
    isTag_split tagged (dollarQuoteTagAt_iff.mp found).2 long
  refine ⟨rfl, diverges_of_lengths tokenize (name ++ '$' :: probe) (.inl ⟨?_, ?_⟩)⟩
  · -- In one piece the tag opens and the probe is quoted.
    have tagAt := dollarQuoteTagAt_iff.mpr
      ⟨(dollarQuoteTagAt_iff.mp found).1, prefix_append _ probe⟩
    have turn := branch_eq_dollarOpen code noDelimiter offLine supports tagAt
    obtain ⟨t, inside, run⟩ := scan_dollarOpen tokenize turn
    have text : '$' :: before ++ (name ++ '$' :: probe) =
        '$' :: (before ++ (name ++ ['$']) ++ probe) := by simp
    rw [text, run]
    exact probe_dollar tokenize tagged inside
  · -- Cut, neither part holds the whole tag.
    have noTag : dollarQuoteTagAt ('$' :: (before ++ [])) = none := by
      rw [append_nil]
      cases part : dollarQuoteTagAt ('$' :: before) with
      | none => rfl
      | some tag =>
        have fits := (dollarQuoteTagAt_iff.mp part).2.length_le
        have := (dollarQuoteTagAt_append after fits).mpr part
        rw [cons_append, found] at this
        rw [← some.inj this] at fits
        simp only [length_cons, length_append, length_nil] at fits
        omega
    have ready : OpenCode s := ⟨code, noDelimiter, reached.commands⟩
    have first := scan_dollar_name tokenize before [] ready beforeName noTag
    rw [append_nil, scan] at first
    simp only [cutOutputs, first, map_nil, nil_append, resolvePending_pushText reached]
    exact probe_after_name tokenize (ready.pushText _) restName

/-- A closing tag is consumed in one turn. -/
theorem scan_dollarClose {body : Str}
    (closes : s.branch '$' (body ++ rest) = .dollarClose ('$' :: body)) :
    scan tokenize s 0 ('$' :: (body ++ rest)) =
      scan tokenize { s.pushText ('$' :: body) with dollarQuoteTag := none } 0 rest := by
  rw [scan]
  simp only [closes]
  have consumed : (s.takeBranch tokenize '$' (.dollarClose ('$' :: body))).2 = body.length := by
    simp
  rw [consumed, scan_skip]
  rfl

/-- No tag is a dollar sign before the probe. -/
theorem isTag_not_prefix_probe (tagged : IsTag tag) : ¬ tag <+: '$' :: probe := by
  obtain ⟨name, rfl, all⟩ := tagged
  intro h
  have inner := (cons_prefix_cons.mp h).2
  cases name with
  | nil => exact absurd (cons_prefix_cons.mp inner).1 (by decide)
  | cons c name =>
    obtain rfl : c = '\n' := (cons_prefix_cons.mp inner).1
    simp [nameChar] at all

/-- A tag cut in two: the quote is not closed. -/
theorem diverges_of_close (reached : Reached s)
    (closes : s.branch ch (before ++ after) = .dollarClose tag)
    (long : before.length + 1 < tag.length) : ch = '$' ∧ Diverges tokenize s 0 (ch :: before) := by
  obtain ⟨inside, pre⟩ := branch_dollarClose closes
  obtain ⟨tagged, noLine, noBlock, noQuote, noDelimiter⟩ := reached.inDollar tag inside
  obtain ⟨rfl, beforeName, name, rfl, restName⟩ := isTag_split tagged pre long
  refine ⟨rfl, diverges_of_lengths tokenize (name ++ '$' :: probe) (.inr ⟨?_, ?_⟩)⟩
  · -- In one piece the tag closes and the probe is code.
    have turn : s.branch '$' ((before ++ (name ++ ['$'])) ++ probe) =
        .dollarClose ('$' :: (before ++ (name ++ ['$']))) := by
      simp only [branch, inside]
      rw [if_pos]
      rw [ isPrefixOf_iff_prefix]
      exact ⟨probe, rfl⟩
    have text : '$' :: before ++ (name ++ '$' :: probe) =
        '$' :: (before ++ (name ++ ['$']) ++ probe) := by simp
    rw [text, scan_dollarClose tokenize turn, pushText_eq]
    exact probe_code tokenize
      ⟨(inCode_iff _).mpr ⟨rfl, noLine, noBlock, noQuote⟩, noDelimiter, reached.commands⟩
      (getLast?_eq_some_iff.mpr ⟨s.buffer ++ '$' :: (before ++ name), by simp⟩)
  · -- Cut, both parts of the tag are body.
    have short : ¬ '$' :: (before ++ (name ++ ['$'])) <+: '$' :: before := by
      intro h
      have := h.length_le
      simp only [length_cons, length_append, length_nil] at this
      omega
    have first : scan tokenize s 0 ('$' :: before) = (s.pushText ('$' :: before), []) := by
      have body := scan_dollarBody tokenize (s := s.pushChar '$') before [] tagged inside
        (not_mem_of_nameChars beforeName)
      rw [append_nil, scan] at body
      rw [scan_dollarBody_cons tokenize '$' before inside short, body]
      rfl
    have still := pushText_inDollar inside ('$' :: before)
    simp only [cutOutputs, first, map_nil, nil_append, resolvePending_pushText reached]
    rw [scan_dollarBody tokenize name _ tagged still (not_mem_of_nameChars restName),
      scan_dollarBody_cons tokenize '$' probe (pushText_inDollar still _)
        (isTag_not_prefix_probe tagged)]
    exact probe_dollar tokenize tagged (pushText_inDollar still _)

/-! ## A delimiter at the cut -/

/-- Inside a block comment, up to its end, everything is pushed. -/
theorem scan_blockComment (outside : s.dollarQuoteTag = none) (noLine : s.inLineComment = false)
    (block : s.inBlockComment = true) (free : '/' ∉ text) :
    scan tokenize s 0 text = (s.pushText text, []) := by
  induction text generalizing s with
  | nil => rfl
  | cons ch text ih =>
    simp only [mem_cons, not_or] at free
    have body : s.branch ch text = .blockCommentBody := by
      simp [branch, outside, noLine, block]
    have turn : (s.takeBranch tokenize ch .blockCommentBody).1.1 = s.pushChar ch := by
      have stays : (!(s.previous == some '*' && ch == '/')) = s.inBlockComment := by
        rw [block]
        simp [Ne.symm free.1]
      simp only [takeBranch, stays]
      rfl
    rw [scan]
    simp only [body, turn]
    have tail := ih (s := s.pushChar ch) outside noLine block free.2
    simp only [takeBranch, tail]
    rfl

/-- Both continuations end in a line `q`, so that `finish` finds no command there. -/
theorem finish_last_q (front : Str) (buffer : s.buffer = front ++ ['\n', 'q'])
    (avoids : DelimiterAvoids s 'q') :
    s.finishWithControl = s.emit (trim s.buffer) := by
  have last : s.buffer.getLast? = some 'q' := by simp [buffer]
  have line : trim (lastLine (trim s.buffer)) = ['q'] := by
    have kept : ∃ front', trim s.buffer = front' ++ ['q'] ∧ lastLine front' = [] := by
      rw [trim, trimEnd_eq_self (getLast?_trimStart last (by decide)) (by decide), buffer,
        trimStart, dropWhile_append]
      split
      · exact ⟨[], by decide, rfl⟩
      · exact ⟨front.dropWhile isWhitespace ++ ['\n'], by simp, lastLine_append_newline _⟩
    obtain ⟨front', eq, empty⟩ := kept
    rw [eq, lastLine_append _ (by decide), empty]
    decide
  exact finish_eq_emit (by rw [line]; decide) (by rw [line]; decide) (by rw [line]; decide) last
    avoids

/-- Trimming does not reach behind a character that is not whitespace. -/
theorem trim_length_ge (front rest : Str) {first last : Char} (hlast : rest.getLast? = some last)
    (hfirst : rest.head? = some first) (h1 : isWhitespace first = false)
    (h2 : isWhitespace last = false) : rest.length ≤ (trim (front ++ rest)).length := by
  have end_ : (front ++ rest).getLast? = some last := by
    rw [getLast?_append, hlast]
    rfl
  rw [trim, trimEnd_eq_self (getLast?_trimStart end_ h2) h2, trimStart, dropWhile_append]
  split
  · obtain ⟨tail, rfl⟩ := head?_eq_some_iff.mp hfirst
    simp [dropWhile, h1]
  · simp

theorem emit_executable (executable : hasExecutableSqlWithOptions statement s.options = true) :
    (s.emit statement).map (·.sql) = [statement] := by
  rw [emit, if_pos executable]
  rfl

theorem emit_length_ge {n : Nat} (long : n ≤ statement.length) :
    ∀ t ∈ (s.emit statement).map (·.sql), n ≤ t.length := by
  intro t member
  unfold emit at member
  split at member
  · simp only [map_cons, map_nil, mem_singleton] at member
    exact member ▸ long
  · simp at member

/-- Outputs that end differently are different. -/
theorem ne_of_last_length {xs ys : List Str} {y : Str} (h : ∀ x ∈ xs, y.length < x.length) :
    xs ≠ ys ++ [y] := by
  rintro rfl
  exact absurd (h y (by simp)) (lt_irrefl _)

theorem getLast?_of_suffix {front : Str} (nonempty : delim ≠ [])
    (suffix : delim.isSuffixOf (front ++ [ch]) = true) : delim.getLast? = some ch := by
  obtain ⟨rest, eq⟩ := isSuffixOf_iff_suffix.mp suffix
  have := congrArg getLast? eq
  rw [getLast?_append_of_ne_nil _ nonempty] at this
  simpa using this

/-- The delimiter that a character completes, and what it cannot end in. -/
theorem completesDelimiter_cases (reached : Reached s) (completes : completesDelimiter s ch = true) :
    ∃ delim, s.customDelimiter = some delim ∧ delim.isSuffixOf (s.buffer ++ [ch]) = true ∧
      ∀ other, other ≠ ch → DelimiterAvoids s other := by
  obtain ⟨delim, hd, suffix⟩ : ∃ delim, s.customDelimiter = some delim ∧
      delim.isSuffixOf (s.buffer ++ [ch]) = true := by
    simpa [completesDelimiter, Option.any_eq_true] using completes
  refine ⟨delim, hd, suffix, fun other ne d h => ?_⟩
  obtain rfl : delim = d := some.inj (hd.symm.trans h)
  refine ⟨reached.delimiter _ hd, ?_⟩
  rw [getLast?_of_suffix (reached.delimiter _ hd) suffix]
  simpa using ne.symm

/-- A comment whose body ends in a line `q`: it is pushed, and `finish` emits the buffer. -/
theorem outputs_comment_q (code : inCode s = true) (avoids : DelimiterAvoids s 'q') :
    outputs (scan tokenize s 0 ['/', '*', '\n', 'q']) =
      (s.emit (trim (s.buffer ++ ['/', '*', '\n', 'q']))).map (·.sql) := by
  obtain ⟨outside, noLine, noBlock, noQuote⟩ := (inCode_iff s).mp code
  have opens : s.branch '/' ['*', '\n', 'q'] = .blockCommentOpen := by
    simp [branch, outside, noLine, noBlock, noQuote]
  have body := scan_blockComment tokenize (s := { s.pushChar '/' with inBlockComment := true })
    ['*', '\n', 'q'] outside noLine rfl (by decide)
  have buffer : (pushText { s.pushChar '/' with inBlockComment := true }
      ['*', '\n', 'q']).buffer = (s.buffer ++ ['/', '*']) ++ ['\n', 'q'] := by
    simp
  rw [scan]
  simp only [opens, takeBranch, body, nil_append]
  rw [outputs, nil_append, finish_last_q _ buffer avoids, buffer, append_assoc]
  rfl

/-- A comment opener cut after a slash that completes the delimiter. -/
theorem diverges_of_slash (reached : Reached s) (code : inCode s = true)
    (completes : completesDelimiter s '/' = true) : Diverges tokenize s 0 ['/'] := by
  obtain ⟨outside, noLine, noBlock, noQuote⟩ := (inCode_iff s).mp code
  obtain ⟨delim, hd, suffix, avoids⟩ := completesDelimiter_cases reached completes
  refine ⟨['*', '\n', 'q'], ?_⟩
  -- In one piece the slash opens a comment and the delimiter is not looked for.
  have whole : ∀ t ∈ outputs (scan tokenize s 0 (['/'] ++ ['*', '\n', 'q'])),
      ['*', '\n', 'q'].length < t.length := by
    rw [singleton_append, outputs_comment_q tokenize code (avoids 'q' (by decide))]
    exact emit_length_ge (n := 4)
      (trim_length_ge _ ['/', '*', '\n', 'q'] rfl rfl (by decide) (by decide))
  -- Cut, the slash ends a statement and the comment starts the next one.
  have cut : ∃ out, cutOutputs tokenize s 0 ['/'] ['*', '\n', 'q'] =
      out ++ [['*', '\n', 'q']] := by
    have plain : s.branch '/' [] = .plain :=
      branch_plain_of code (by decide) rfl
    have turn := plainChar_delimiter tokenize _ (by decide) noQuote hd suffix
    have opens : (cleared s '/').branch '*' ['\n', 'q'] = .blockCommentOpen := by
      have quoted : (cleared s '/').quoted = false := noQuote
      simp only [branch, commentBranch, quoted]
      simp [cleared, clear, outside, noLine, noBlock]
    have body := scan_blockComment tokenize
      (s := { (cleared s '/').pushChar '*' with inBlockComment := true })
      ['\n', 'q'] outside noLine rfl (by decide)
    have finished := finish_last_q ['*']
      (s := pushText { (cleared s '/').pushChar '*' with inBlockComment := true } ['\n', 'q'])
      rfl (avoids 'q' (by decide))
    have first : scan tokenize s 0 ['/'] = (cleared s '/', (s.plainChar tokenize '/').2) := by
      simp only [scan, plain, takeBranch, turn, append_nil]
    have second : scan tokenize (cleared s '/') 0 ['*', '\n', 'q'] =
        (pushText { (cleared s '/').pushChar '*' with inBlockComment := true } ['\n', 'q'], []) := by
      rw [scan]
      simp only [opens, takeBranch, body, nil_append]
    refine ⟨(s.plainChar tokenize '/').2.map (·.sql), ?_⟩
    simp only [cutOutputs, first, resolvePending_eq_self (cleared s '/') _ rfl, second, outputs,
      finished, nil_append]
    congr 1
    exact emit_executable (hasExecutable_cons _ _ _ (by decide))
  obtain ⟨out, cut⟩ := cut
  rw [cut]
  exact ne_of_last_length whole

/-- A MySQL `--` before a cut, no comment, whose second dash completes the delimiter. -/
theorem diverges_of_dashes (reached : Reached s) (code : inCode s = true)
    (completes : completesDelimiter s '-' = true) (dash : s.previous = some '-')
    (strict : s.options.requiresWhitespaceAfterLineCommentDashes = true) :
    Diverges tokenize s 0 ['-'] := by
  obtain ⟨outside, noLine, noBlock, noQuote⟩ := (inCode_iff s).mp code
  obtain ⟨delim, hd, suffix, avoids⟩ := completesDelimiter_cases reached completes
  have avoidsQ := avoids 'q' (by decide)
  refine ⟨['q', '/', '*', '\n', 'q'], ?_⟩
  have noComment : dashDashStartsLineComment s.options (some 'q') = false := by
    simp only [dashDashStartsLineComment, strict]
    decide
  -- Cut, the dashes wait for the next character and the delimiter is not looked for.
  have cut : ∀ t ∈ cutOutputs tokenize s 0 ['-'] ['q', '/', '*', '\n', 'q'],
      ['q', '/', '*', '\n', 'q'].length < t.length := by
    have pending : s.branch '-' [] = .pendingDashes := by
      simp [branch, outside, noLine, noBlock, noQuote, dash, strict]
    have resolved : resolvePending { s.pushChar '-' with
        pendingMysqlLineCommentDashes := true } (some 'q') = s.pushChar '-' := by
      simp [resolvePending, noComment, pushChar, noLine, reached.settled]
    have first : scan tokenize s 0 ['-'] =
        ({ s.pushChar '-' with pendingMysqlLineCommentDashes := true }, []) := by
      simp [scan, pending]
    have second : scan tokenize (s.pushChar '-') 0 ['q', '/', '*', '\n', 'q'] =
        scan tokenize ((s.pushChar '-').pushChar 'q') 0 ['/', '*', '\n', 'q'] :=
      scan_push tokenize (branch_plain_of code (by decide) rfl)
        (by decide) code (completesDelimiter_of_avoids avoidsQ)
    simp only [cutOutputs, first, map_nil, nil_append, head?_cons, resolved, second]
    rw [outputs_comment_q tokenize (s := (s.pushChar '-').pushChar 'q') code avoidsQ]
    refine emit_length_ge (n := 6) ?_
    simp only [pushChar_buffer, append_assoc, cons_append, nil_append]
    exact trim_length_ge _ ['-', 'q', '/', '*', '\n', 'q'] rfl rfl (by decide) (by decide)
  -- In one piece the second dash ends a statement.
  have whole : ∃ out, outputs (scan tokenize s 0 (['-'] ++ ['q', '/', '*', '\n', 'q'])) =
      out ++ [['q', '/', '*', '\n', 'q']] := by
    have plain : s.branch '-' ['q', '/', '*', '\n', 'q'] = .plain := by
      simp [branch, dollarBranch, dollarQuoteTagAt, outside, noLine, noBlock, noQuote, dash,
        noComment]
    have turn := plainChar_delimiter tokenize _ (by decide) noQuote hd suffix
    have second : scan tokenize (cleared s '-') 0 ['q', '/', '*', '\n', 'q'] =
        scan tokenize ((cleared s '-').pushChar 'q') 0 ['/', '*', '\n', 'q'] :=
      scan_push tokenize (branch_plain_of code (by decide) rfl)
        (by decide) code (completesDelimiter_of_avoids avoidsQ)
    have third := outputs_comment_q tokenize (s := (cleared s '-').pushChar 'q') code avoidsQ
    have trimmed : trim (((cleared s '-').pushChar 'q').buffer ++ ['/', '*', '\n', 'q']) =
        ['q', '/', '*', '\n', 'q'] := by
      change trim ['q', '/', '*', '\n', 'q'] = _
      decide
    rw [trimmed, emit_executable (hasExecutable_cons _ _ _ (by decide))] at third
    refine ⟨(s.plainChar tokenize '-').2.map (·.sql), ?_⟩
    rw [singleton_append, scan]
    simp only [plain, takeBranch, turn, second, outputs_append, third]
  obtain ⟨out, whole⟩ := whole
  rw [whole]
  exact (ne_of_last_length cut).symm

theorem diverges_of_delimiterAtCut {next : Option Char} (reached : Reached s)
    (atCut : delimiterAtCut s ch next = true) :
    (∃ c ∈ [ch], nameChar c = false) ∧ Diverges tokenize s 0 [ch] := by
  simp only [delimiterAtCut, needsNext, Bool.and_eq_true, Bool.or_eq_true, beq_iff_eq] at atCut
  obtain ⟨⟨code, completes⟩, ⟨rfl, -⟩ | ⟨⟨⟨strict, dash⟩, rfl⟩, -⟩⟩ := atCut
  · exact ⟨⟨'/', by simp, by decide⟩, diverges_of_slash tokenize reached code completes⟩
  · exact ⟨⟨'-', by simp, by decide⟩,
      diverges_of_dashes tokenize reached code completes dash strict⟩

/-- A turn that stays inside the text before the cut does not depend on what comes after it,
if the text before the cut has a character that no tag name holds. -/
theorem branch_append_of_break (reached : Reached s) (ch : Char) (before after : Str)
    (break_ : ∃ c ∈ before, nameChar c = false) :
    s.branch ch (before ++ after) = s.branch ch before := by
  obtain ⟨c, member, notName⟩ := break_
  have nonempty : before ≠ [] := by
    rintro rfl
    cases member
  have outside {tag : Str} (tagged : IsTag tag) (pre : tag <+: ch :: (before ++ after))
      (long : before.length + 1 < tag.length) : False := by
    obtain ⟨-, all, -⟩ := isTag_split tagged pre long
    rw [all_eq_true.mp all c member] at notName
    cases notName
  rcases branch_append s ch before after nonempty with same | ⟨tag, opens | closes, long⟩
  · exact same
  · obtain ⟨-, -, -, -, found⟩ := branch_dollarOpen opens
    exact (outside (dollarQuoteTagAt_iff.mp found).1.isTag (dollarQuoteTagAt_iff.mp found).2 long).elim
  · obtain ⟨inside, pre⟩ := branch_dollarClose closes
    exact (outside (reached.inDollar tag inside).1 pre long).elim

/-- Every rejected cut diverges on some continuation. The induction walks the text before the
cut as the scan does; a later turn diverges for the same continuation. -/
theorem diverges_of_not_cutOk {skip : Nat} (reached : Reached s) (fits : skip ≤ before.length)
    (bad : cutOk tokenize s skip before after = false) :
    (∃ c ∈ before, nameChar c = false) ∧ Diverges tokenize s skip before := by
  induction before generalizing s skip with
  | nil =>
    obtain rfl : skip = 0 := Nat.le_zero.mp fits
    simp [cutOk] at bad
  | cons ch before ih =>
    cases skip with
    | succ skip =>
      obtain ⟨⟨c, member, notName⟩, diverges⟩ := ih reached (Nat.le_of_succ_le_succ fits) bad
      exact ⟨⟨c, mem_cons_of_mem _ member, notName⟩, diverges⟩
    | zero =>
      by_cases crosses : before.length < (s.takeBranch tokenize ch (s.branch ch (before ++ after))).2
      · have diverges : ch = '$' ∧ Diverges tokenize s 0 (ch :: before) := by
          cases turn : s.branch ch (before ++ after) with
          | dollarOpen tag =>
            rw [turn, takeBranch] at crosses
            exact diverges_of_open tokenize reached turn (by omega)
          | dollarClose tag =>
            rw [turn, takeBranch] at crosses
            exact diverges_of_close tokenize reached turn (by omega)
          | _ => simp [turn] at crosses
        exact ⟨⟨ch, by simp, by rw [diverges.1]; decide⟩, diverges.2⟩
      · simp only [cutOk, Bool.and_eq_false_iff, Bool.or_eq_false_iff, Bool.not_eq_false'] at bad
        cases before with
        | nil =>
          have atCut : delimiterAtCut s ch after.head? = true := by
            rcases bad with bad | bad
            · exact bad.2
            · exact absurd bad (by simpa [cutOk] using crosses)
          exact diverges_of_delimiterAtCut tokenize reached atCut
        | cons next before =>
          have bad : cutOk tokenize (s.takeBranch tokenize ch
              (s.branch ch (next :: before ++ after))).1.1 (s.takeBranch tokenize ch
              (s.branch ch (next :: before ++ after))).2 (next :: before) after = false := by
            rcases bad with bad | bad
            · simp at bad
            · exact bad
          have same : s.branch ch (next :: before ++ after) = s.branch ch (next :: before) := by
            rcases branch_append s ch (next :: before) after (by simp) with same | ⟨tag, hb, long⟩
            · exact same
            · rcases hb with hb | hb <;> rw [hb, takeBranch] at crosses <;> omega
          rw [same] at bad crosses
          have reached' := reached_takeBranch tokenize reached ch (next :: before)
            (branch_ne_pending s ch next before)
          obtain ⟨⟨c, member, notName⟩, after', different⟩ := ih reached' (by omega) bad
          refine ⟨⟨c, mem_cons_of_mem _ member, notName⟩, after', ?_⟩
          have turn := branch_append_of_break reached ch (next :: before) after'
            ⟨c, member, notName⟩
          simp only [cutOutputs] at different ⊢
          rw [cons_append, scan, scan, turn]
          simp only [outputs_append, map_append, append_assoc]
          exact fun h => different (append_cancel_left h)

/-- The statements of a text in two chunks, from the two scans. -/
theorem splitSqlChunks_pair (options : SqlDialectProfile) (before after : Str) :
    splitSqlChunks tokenize options [before, after] =
      cutOutputs tokenize (withOptions options) 0 before after := by
  simp [splitSqlChunks, feed, pushChunkWithControl, cutOutputs, outputs,
    resolvePending_eq_self (withOptions options) _ rfl]

theorem splitSqlChunks_single (options : SqlDialectProfile) (text : Str) :
    splitSqlChunks tokenize options [text] =
      outputs (scan tokenize (withOptions options) 0 text) := by
  simp [splitSqlChunks, feed, pushChunkWithControl, outputs,
    resolvePending_eq_self (withOptions options) _ rfl]

/-- Streaming a text in chunks gives the statements of the whole text when every cut is harmless,
and a cut after `before` is harmless for every continuation only if `cutOk` accepts it for every
continuation. -/
theorem splitSqlChunks_independent (options : SqlDialectProfile) :
    (∀ chunks, cutsOk tokenize (withOptions options) chunks = true →
      splitSqlChunks tokenize options chunks = splitSqlChunks tokenize options [chunks.flatten]) ∧
    (options.supportsCustomDelimiterCommands = true → ∀ before,
      (∀ after, splitSqlChunks tokenize options [before, after] =
        splitSqlChunks tokenize options [before ++ after]) ↔
      ∀ after, cutOk tokenize (withOptions options) 0 before after = true) := by
  refine ⟨fun chunks ok => ?_, fun commands before => ⟨fun same after => ?_, fun ok after => ?_⟩⟩
  · rw [splitSqlChunks, splitSqlChunks, feed_flatten tokenize _ ok]
  · cases bad : cutOk tokenize (withOptions options) 0 before after with
    | true => rfl
    | false =>
      obtain ⟨-, after', different⟩ := diverges_of_not_cutOk tokenize
        (reached_withOptions commands) (Nat.zero_le _) bad
      have := same after'
      rw [splitSqlChunks_pair, splitSqlChunks_single] at this
      exact absurd this.symm different
  · rw [splitSqlChunks_pair, splitSqlChunks_single, cutOutputs,
      scan_append tokenize (withOptions options) 0 before after rfl (ok after), outputs_append]

/-- A cut between two statements is harmless. -/
theorem splitSqlChunks_independent_between_statements :
    splitSqlChunks (fun _ _ => none) {} ["SELECT 1;".toList, "SELECT $$;$$".toList] =
        splitSqlChunks (fun _ _ => none) {} ["SELECT 1;SELECT $$;$$".toList] ∧
      ((∀ after, splitSqlChunks (fun _ _ => none) {} ["SELECT 1;".toList, after] =
          splitSqlChunks (fun _ _ => none) {} ["SELECT 1;".toList ++ after]) ↔
        ∀ after, cutOk (fun _ _ => none) (withOptions {}) 0 "SELECT 1;".toList after = true) :=
  ⟨(splitSqlChunks_independent (fun _ _ => none) {}).1
      ["SELECT 1;".toList, "SELECT $$;$$".toList] (by decide),
    (splitSqlChunks_independent (fun _ _ => none) {}).2 rfl "SELECT 1;".toList⟩

/-- A cut between the two dollar signs of a tag turns one statement into two. -/
theorem splitSqlChunks_cut_in_tag :
    splitSqlChunks (fun _ _ => none) {} ["SELECT $".toList, "$;$$".toList] =
        ["SELECT $$".toList, "$$".toList] ∧
      splitSqlChunks (fun _ _ => none) {} ["SELECT $$;$$".toList] = ["SELECT $$;$$".toList] := by
  decide

end Dbx.Guarantees.ChunkIndependence
