import Dbx.Source.SqlFileImport

/-!
# The normaliser of binary literals, cut into rounds

The normaliser of an SQL file sees the bytes in rounds and holds back those it cannot decide
yet. What it gives out for the whole file does not depend on the rounds
(`normalizeLoop_append`), and before the end of the file it does not fail
(`normalizeLoop_isSome`).

A round holds back at most six bytes, or a `_binary` keyword with blanks behind it, of any
length (`normalizeLoop_held`). A round without output is one that starts with these bytes
(`normalizeLoop_silent`).

Calls of `normalize` on the chunks of a file together give what one call on the whole file
gives, or fail with it (`normalizeChunks_eq`).
-/
namespace Dbx.Guarantees.BinaryLiterals

open Dbx.Source Dbx.Lib.Text List Option

/-! ## The normaliser on the whole file -/

/-- The output for all bytes that are left, if the normaliser does not fail. -/
def normalizeRest (s : NormalizerState) (bytes : Bytes) : Option Bytes :=
  match normalizeLoop true s bytes with
  | none => none
  | some (output, last, held) => if last.state == .binaryQuoted then none else some (output ++ held)

theorem normalizeRest_nil (s : NormalizerState) :
    normalizeRest s [] = if s.state == .binaryQuoted then none else some [] := by
  rw [normalizeRest, normalizeLoop]
  rfl

variable {output bytes held : Bytes} {quote : UInt8} {last : NormalizerState}

variable {count : Nat}

theorem normalizeRest_consume {s next : NormalizerState} {byte : UInt8} {rest : Bytes}
    (step : normalizeStep true s byte rest = .consume count output next) :
    normalizeRest s (byte :: rest) =
      (normalizeRest next (rest.drop (count - 1))).map (output ++ ·) := by
  unfold normalizeRest
  rw [normalizeLoop, step]
  dsimp only
  cases normalizeLoop true next (rest.drop (count - 1)) with
  | none => rfl
  | some result =>
    dsimp only [map_some]
    split
    · rfl
    · rw [append_assoc]
      rfl

/-- A step that consumes bytes does the same when more bytes follow. -/
def Stable (rest : Bytes) (step later : NormalizeStep) : Prop :=
  match step with
  | .consume count _ _ => count - 1 ≤ rest.length ∧ later = step
  | .hold => True
  | .fail => False

theorem Stable.consume {rest : Bytes} {next : NormalizerState} (enough : count - 1 ≤ rest.length) :
    Stable rest (.consume count output next) (.consume count output next) := ⟨enough, rfl⟩

section

variable (s : NormalizerState) (byte : UInt8) (rest more : Bytes)
include s byte rest more

attribute [local simp] normalizePlain

theorem normalizePlain_stable :
    Stable rest (normalizePlain false s byte rest) (normalizePlain true s byte (rest ++ more)) := by
  have hash : (asciiByte '-' == asciiByte '#') = false := by decide
  have slash : (asciiByte '-' == asciiByte '/') = false := by decide
  have other : (asciiByte '/' == asciiByte '#') = false := by decide
  have dash : (asciiByte '/' == asciiByte '-') = false := by decide
  by_cases isDash : byte = asciiByte '-'
  · subst isDash
    cases rest with
    | nil => simp [Stable]
    | cons x rest =>
      by_cases again : x = asciiByte '-'
      · subst again
        cases rest with
        | nil | cons => simp [Stable]
      · simp [Stable, again, hash, slash]
  · by_cases isSlash : byte = asciiByte '/'
    · subst isSlash
      cases rest with
      | nil => simp [Stable, other, dash]
      | cons x rest =>
        by_cases star : x = asciiByte '*'
        · subst star
          simp [Stable, other, dash]
        · simp [Stable, other, dash, star]
    · by_cases isHash : byte = asciiByte '#'
      · subst isHash
        simp [Stable, isDash]
      · simp [Stable, isDash, isSlash, isHash]

theorem normalizeNormal_stable :
    Stable rest (normalizeNormal false s byte rest) (normalizeNormal true s byte (rest ++ more)) := by
  have plain := normalizePlain_stable s byte rest more
  unfold normalizeNormal
  by_cases underscore : (byte == asciiByte '_') = true
  · rw [if_pos underscore, if_pos underscore]
    by_cases short : (byte :: rest).length < 7
    · rw [if_pos short, if_neg (by decide)]
      trivial
    have long : ¬ (byte :: (rest ++ more)).length < 7 := by
      simp only [length_cons, length_append] at short ⊢
      omega
    have front : (byte :: (rest ++ more)).take 7 = (byte :: rest).take 7 := by
      rw [← cons_append, take_append_of_le_length (by omega)]
    have back : (byte :: (rest ++ more)).drop 7 = (byte :: rest).drop 7 ++ more := by
      rw [← cons_append, drop_append_of_le_length (by omega)]
    rw [if_neg short, if_neg long, front, back]
    split
    · -- The keyword is decided by the first byte behind the blanks.
      cases after : ((byte :: rest).drop 7).dropWhile isAsciiWhitespaceByte with
      | nil => trivial
      | cons x later =>
        have cut := takeWhile_append_dropWhile (p := isAsciiWhitespaceByte)
          (l := (byte :: rest).drop 7)
        have lengths := congrArg length cut
        rw [after, length_append, length_drop] at lengths
        simp only [length_cons] at lengths
        have drop : (((byte :: rest).drop 7) ++ more).dropWhile isAsciiWhitespaceByte =
            x :: later ++ more := by
          rw [dropWhile_append, after]
          rfl
        have take : (((byte :: rest).drop 7) ++ more).takeWhile isAsciiWhitespaceByte =
            ((byte :: rest).drop 7).takeWhile isAsciiWhitespaceByte := by
          rw [takeWhile_append, if_neg]
          rw [length_drop]
          simp only [length_cons]
          omega
        rw [drop, take]
        by_cases quote : x = asciiByte '\''
        · subst quote
          exact .consume (by omega)
        · have other : (some x == some (asciiByte '\'')) = false := by simpa using quote
          simp only [cons_append, isEmpty_cons, head?_cons, Bool.false_and,
            Bool.false_eq_true, if_false, other]
          exact plain
    · exact plain
  · rw [if_neg underscore, if_neg underscore]
    exact plain

attribute [local simp] normalizeBlockComment

theorem normalizeBlockComment_stable : Stable rest (normalizeBlockComment false s byte rest)
      (normalizeBlockComment true s byte (rest ++ more)) := by
  by_cases star : byte = asciiByte '*'
  · subst star
    cases rest with
    | nil => simp [Stable]
    | cons x rest =>
      by_cases slash : x = asciiByte '/' <;> simp [Stable, slash]
  · simp [Stable, star]

attribute [local simp] normalizeBinary

theorem normalizeBinary_stable :
    Stable rest (normalizeBinary false s byte rest) (normalizeBinary true s byte (rest ++ more)) := by
  have quote : (asciiByte '\'' == asciiByte '\\') = false := by decide
  by_cases backslash : byte = asciiByte '\\'
  · subst backslash
    cases rest with
    | nil | cons => simp [Stable]
  · by_cases isQuote : byte = asciiByte '\''
    · subst isQuote
      cases rest with
      | nil => simp [Stable, quote]
      | cons x rest =>
        by_cases again : x = asciiByte '\'' <;> simp [Stable, quote, again]
    · simp [Stable, backslash, isQuote]

end

attribute [local simp] normalizeQuoted

/-- Inside quotes a step is stable, but for a backslash at the end of the bytes. -/
theorem normalizeQuoted_stable {s : NormalizerState} (noEscape : quote ≠ asciiByte '\\')
    {byte : UInt8} {rest more : Bytes} :
    Stable rest (normalizeQuoted false s quote byte rest)
        (normalizeQuoted true s quote byte (rest ++ more)) ∨
      rest = [] ∧ s.quotedEscapePending = false ∧ byte = asciiByte '\\' := by
  cases pending : s.quotedEscapePending with
  | true =>
    left
    by_cases waits : (byte == quote && rest.isEmpty) = true
    · simp [Stable, waits]
    · rw [Bool.not_eq_true] at waits
      simp [Stable, waits, pending]
  | false =>
    by_cases backslash : byte = asciiByte '\\'
    · cases rest with
      | nil => exact .inr ⟨rfl, rfl, backslash⟩
      | cons x rest =>
        left
        simp [Stable, pending, backslash]
    · left
      by_cases isQuote : byte = quote
      · subst isQuote
        cases rest with
        | nil => simp [Stable]
        | cons x rest =>
          by_cases again : x = byte <;> simp [Stable, pending, backslash, again]
      · simp [Stable, pending, backslash, isQuote]

/-- The quote that ends the text of a state. -/
def quoteOf : MysqlDumpBinaryLiteralState → Option UInt8
  | .singleQuoted => some (asciiByte '\'')
  | .doubleQuoted => some (asciiByte '"')
  | .backtickQuoted => some (asciiByte '\x60')
  | _ => none

theorem quoteOf_ne_backslash {state : MysqlDumpBinaryLiteralState} (h : quoteOf state = some quote) :
    quote ≠ asciiByte '\\' := by
  cases state
  all_goals cases h
  all_goals decide

theorem normalizeStep_quoted {s : NormalizerState} (h : quoteOf s.state = some quote) (eof : Bool)
    (byte : UInt8) (rest : Bytes) :
    normalizeStep eof s byte rest = normalizeQuoted eof s quote byte rest := by
  unfold normalizeStep
  cases state : s.state
  all_goals
    rw [state] at h
    cases h
  all_goals rfl

/-- A backslash that ends the bytes inside quotes; the byte it escapes comes later. -/
structure EscapeAtEnd (s : NormalizerState) (byte : UInt8) (rest : Bytes) : Prop where
  quoted : ∃ quote, quoteOf s.state = some quote
  noEscape : s.quotedEscapePending = false
  backslash : byte = asciiByte '\\'
  atEnd : rest = []

theorem normalizeStep_stable (s : NormalizerState) (byte : UInt8) (rest more : Bytes) :
    Stable rest (normalizeStep false s byte rest) (normalizeStep true s byte (rest ++ more)) ∨
      EscapeAtEnd s byte rest := by
  cases quoted : quoteOf s.state with
  | some quote =>
    rw [normalizeStep_quoted quoted, normalizeStep_quoted quoted]
    obtain stable | ends := normalizeQuoted_stable (quoteOf_ne_backslash quoted)
    · exact .inl stable
    · exact .inr ⟨⟨quote, quoted⟩, ends.2.1, ends.2.2, ends.1⟩
  | none =>
    left
    unfold normalizeStep
    cases state : s.state with
    | normal => exact normalizeNormal_stable s byte rest more
    | lineComment => exact .consume (by simp)
    | blockComment => exact normalizeBlockComment_stable s byte rest more
    | binaryQuoted => exact normalizeBinary_stable s byte rest more
    | singleQuoted | doubleQuoted | backtickQuoted =>
      rw [state] at quoted
      cases quoted

section

variable {s : NormalizerState} {byte : UInt8} {rest : Bytes} (h : EscapeAtEnd s byte rest)
include h

theorem EscapeAtEnd.step : normalizeStep false s byte rest = .consume 1 [byte]
      { s with previousSourceByte := some byte, quotedEscapePending := true } := by
  obtain ⟨⟨quote, quoted⟩, noEscape, rfl, rfl⟩ := h
  rw [normalizeStep_quoted quoted]
  have other := quoteOf_ne_backslash quoted
  simp [noEscape, Ne.symm other]

/-- The escaped byte is taken with the backslash, or later by the pending flag. -/
theorem EscapeAtEnd.rest_eq (more : Bytes) : normalizeRest s (byte :: more) =
      (normalizeRest { s with previousSourceByte := some byte, quotedEscapePending := true }
        more).map ([byte] ++ ·) := by
  obtain ⟨⟨quote, quoted⟩, noEscape, rfl, rfl⟩ := h
  cases more with
  | nil =>
    have step : normalizeStep true s (asciiByte '\\') [] = .consume 1 [asciiByte '\\']
        { s with previousSourceByte := some (asciiByte '\\') } := by
      rw [normalizeStep_quoted quoted]
      simp [noEscape]
    rw [normalizeRest_consume step, drop_nil, normalizeRest_nil, normalizeRest_nil]
  | cons escaped more =>
    have step : normalizeStep true s (asciiByte '\\') (escaped :: more) =
        .consume 2 [asciiByte '\\', escaped] { s with previousSourceByte := some escaped } := by
      rw [normalizeStep_quoted quoted]
      simp [noEscape]
    have later : normalizeStep true
        { s with previousSourceByte := some (asciiByte '\\'), quotedEscapePending := true }
        escaped more = .consume 1 [escaped] { s with previousSourceByte := some escaped } := by
      rw [normalizeStep_quoted (s := { s with
        previousSourceByte := some (asciiByte '\\'), quotedEscapePending := true }) quoted]
      simp [noEscape]
    rw [normalizeRest_consume step, normalizeRest_consume later, Option.map_map]
    rfl

end

/-- What is still to come does not depend on where the bytes are cut. -/
theorem normalizeLoop_append {s : NormalizerState}
    (run : normalizeLoop false s bytes = some (output, last, held)) (more : Bytes) :
    normalizeRest s (bytes ++ more) = (normalizeRest last (held ++ more)).map (output ++ ·) := by
  fun_induction normalizeLoop false s bytes generalizing output with
  | case1 | case2 =>
    cases run
    simp
  | case3 s byte rest fail => cases run
  | case4 s byte rest count front next step ih =>
    obtain ⟨⟨later, last', held'⟩, tail, same⟩ := map_eq_some_iff.mp run
    cases same
    have rest_eq : normalizeRest s (byte :: rest ++ more) =
        (normalizeRest next (rest.drop (count - 1) ++ more)).map (front ++ ·) := by
      obtain stable | escape := normalizeStep_stable s byte rest more
      · rw [step] at stable
        obtain ⟨enough, same⟩ := stable
        rw [cons_append, normalizeRest_consume same, drop_append_of_le_length enough]
      rw [escape.step] at step
      cases step
      rw [escape.atEnd, cons_append, drop_nil, nil_append]
      exact escape.rest_eq more
    rw [rest_eq, ih tail, Option.map_map]
    simp [Function.comp_def]

/-- Before the end of the file the normaliser waits where it could fail. -/
theorem normalizeLoop_isSome (s : NormalizerState) (bytes : Bytes) :
    (normalizeLoop false s bytes).isSome := by
  fun_induction normalizeLoop false s bytes with
  | case1 | case2 => rfl
  | case3 s byte rest fail =>
    obtain stable | escape := normalizeStep_stable s byte rest []
    · rw [fail] at stable
      exact stable.elim
    · rw [escape.step] at fail
      cases fail
  | case4 s byte rest count front next step ih => rwa [isSome_map]

/-! ## What a round gives out -/

theorem hexDigit_lt {value : UInt8} (small : value < 16) : hexDigit value < 128 := by
  unfold hexDigit
  split
  all_goals
    rw [UInt8.lt_iff_toNat_lt] at *
    simp at *
    omega

/-- A step gives out a byte, and one above the ASCII range only for itself. -/
def GivesOut (step : NormalizeStep) : Prop :=
  match step with
  | .consume count output _ => ∃ first more, output = first :: more ∧ (128 ≤ first → count = 1 ∧ more = [])
  | _ => True

theorem GivesOut.one (byte : UInt8) (next : NormalizerState) : GivesOut (.consume 1 [byte] next) :=
  ⟨byte, [], rfl, fun _ => ⟨rfl, rfl⟩⟩

theorem GivesOut.low {first : UInt8} {more : Bytes} (next : NormalizerState) (low : first < 128) :
    GivesOut (.consume count (first :: more) next) :=
  ⟨first, more, rfl, fun high => absurd low (UInt8.not_lt.mpr high)⟩

theorem appendHex_givesOut {byte : UInt8} {next : NormalizerState} :
    GivesOut (.consume count (appendHex byte) next) := by
  apply GivesOut.low
  apply hexDigit_lt
  rw [UInt8.lt_iff_toNat_lt, UInt8.toNat_div]
  have := byte.toNat_lt
  simp
  omega

section

variable (eof : Bool) (s : NormalizerState) (byte : UInt8) (rest : Bytes)

theorem normalizePlain_givesOut : GivesOut (normalizePlain eof s byte rest) := by
  unfold normalizePlain
  dsimp only
  split
  · rename_i dash
    split
    · trivial
    · have : byte = asciiByte '-' := by simp_all
      exact .low _ (by rw [this]; decide)
  · repeat' split
    all_goals first
      | trivial
      | exact .one _ _
      | skip
    have : byte = asciiByte '/' := by simp_all
    exact .low _ (by rw [this]; decide)

theorem normalizeNormal_givesOut : GivesOut (normalizeNormal eof s byte rest) := by
  have plain := normalizePlain_givesOut eof s byte rest
  unfold normalizeNormal
  dsimp only
  repeat' split
  all_goals first
    | exact plain
    | trivial
    | exact .low _ (by decide)

theorem normalizeQuoted_givesOut (low : quote < 128) :
    GivesOut (normalizeQuoted eof s quote byte rest) := by
  unfold normalizeQuoted
  split
  · trivial
  split
  · exact .one _ _
  split
  · rename_i backslash
    split
    · exact .low _ (by rw [beq_iff_eq.mp backslash]; decide)
    · exact .one _ _
  · split
    · split
      · exact .low _ low
      · exact .one _ _
    · exact .one _ _

theorem normalizeBlockComment_givesOut : GivesOut (normalizeBlockComment eof s byte rest) := by
  unfold normalizeBlockComment
  split
  · trivial
  split
  · rename_i star
    have : byte = asciiByte '*' := by simp_all
    exact .low _ (by rw [this]; decide)
  · exact .one _ _

theorem normalizeBinary_givesOut : GivesOut (normalizeBinary eof s byte rest) := by
  unfold normalizeBinary
  repeat' split
  all_goals first
    | trivial
    | exact .one _ _
    | exact appendHex_givesOut

theorem normalizeStep_givesOut : GivesOut (normalizeStep eof s byte rest) := by
  unfold normalizeStep
  split
  · exact normalizeNormal_givesOut eof s byte rest
  · exact normalizeQuoted_givesOut eof s byte rest (by decide)
  · exact normalizeQuoted_givesOut eof s byte rest (by decide)
  · exact normalizeQuoted_givesOut eof s byte rest (by decide)
  · exact .one _ _
  · exact normalizeBlockComment_givesOut eof s byte rest
  · exact normalizeBinary_givesOut eof s byte rest

end

/-- The bytes are a keyword of a binary literal and blanks, and nothing behind them. -/
def awaitsLiteral (s : NormalizerState) (bytes : Bytes) : Bool :=
  s.state == .normal && !isSqlIdentifierByte s.previousSourceByte &&
    isBinaryKeyword (bytes.take 7) && (bytes.drop 7).all isAsciiWhitespaceByte

variable {s : NormalizerState} {byte : UInt8} {rest : Bytes}

theorem awaitsLiteral_iff : awaitsLiteral s bytes = true ↔ s.state = .normal ∧
      isSqlIdentifierByte s.previousSourceByte = false ∧
      isBinaryKeyword (bytes.take 7) = true ∧ (bytes.drop 7).all isAsciiWhitespaceByte = true := by
  simp [awaitsLiteral, and_assoc]

theorem isBinaryKeyword_length (h : isBinaryKeyword (bytes.take 7) = true) : 7 ≤ bytes.length := by
  have length := congrArg length (beq_iff_eq.mp h)
  rw [length_map, length_take] at length
  have : binaryKeyword.length = 7 := by decide
  omega

theorem eq_underscore (h : toAsciiLowercaseByte byte = asciiByte '_') : byte = asciiByte '_' := by
  have all : ∀ n < 256, toAsciiLowercaseByte (.ofNat n) = asciiByte '_' →
      UInt8.ofNat n = asciiByte '_' := by decide +kernel
  have here := all byte.toNat byte.toNat_lt
  rw [UInt8.ofNat_toNat] at here
  exact here h

theorem isBinaryKeyword_first (h : isBinaryKeyword ((byte :: rest).take 7) = true) :
    byte = asciiByte '_' := by
  have same := beq_iff_eq.mp h
  exact eq_underscore (cons.inj same).1

theorem awaitsLiteral_hold (h : awaitsLiteral s (byte :: rest) = true) :
    normalizeStep false s byte rest = .hold := by
  obtain ⟨state, boundary, keyword, blanks⟩ := awaitsLiteral_iff.mp h
  have long := isBinaryKeyword_length keyword
  have none : ((byte :: rest).drop 7).dropWhile isAsciiWhitespaceByte = [] :=
    dropWhile_eq_nil_iff.mpr fun b member => all_eq_true.mp blanks b member
  have underscore : (byte == asciiByte '_') = true := by rw [isBinaryKeyword_first keyword]; decide
  simp only [normalizeStep, state]
  unfold normalizeNormal
  rw [if_pos underscore, if_neg (by omega), if_pos (by rw [keyword, boundary]; rfl), none]
  rfl

theorem normalizePlain_hold (h : normalizePlain false s byte rest = .hold) : rest.length ≤ 1 := by
  unfold normalizePlain at h
  match rest with
  | [] | [x] => simp
  | x :: y :: rest =>
    simp only [head?_cons, tail_cons, isNone_some, isEmpty_cons, Bool.and_false,
      Bool.false_and, Bool.false_eq_true, if_false] at h
    repeat' split at h
    all_goals cases h

theorem normalizeStep_hold (h : normalizeStep false s byte rest = .hold) :
    rest.length < 6 ∨ awaitsLiteral s (byte :: rest) = true := by
  have empty : ∀ {p q : Bool}, (p && rest.isEmpty && q) = true → rest.length < 6 := by
    intro p q h
    have : rest = [] := by simp_all
    rw [this]
    decide
  have quoted : ∀ quote, normalizeQuoted false s quote byte rest = .hold → rest.length < 6 := by
    intro quote h
    unfold normalizeQuoted at h
    repeat' split at h
    all_goals first
      | exact empty ‹_›
      | cases h
  have plain : normalizePlain false s byte rest = .hold → rest.length < 6 := fun h => by
    have := normalizePlain_hold h
    omega
  unfold normalizeStep at h
  cases state : s.state with
  | normal =>
    simp only [state] at h
    unfold normalizeNormal at h
    dsimp only at h
    split at h
    · split at h
      · rename_i short
        rw [length_cons] at short
        exact .inl (by omega)
      split at h
      · rename_i keyword
        split at h
        · rename_i ends
          right
          rw [Bool.and_eq_true, Bool.not_eq_true'] at keyword
          apply awaitsLiteral_iff.mpr
          refine ⟨state, keyword.2, keyword.1, ?_⟩
          have none : ((byte :: rest).drop 7).dropWhile isAsciiWhitespaceByte = [] := by
            simpa using ends
          exact all_eq_true.mpr (dropWhile_eq_nil_iff.mp none)
        · split at h
          · cases h
          · exact .inl (plain h)
      · exact .inl (plain h)
    · exact .inl (plain h)
  | singleQuoted | doubleQuoted | backtickQuoted =>
    rw [state] at h
    exact .inl (quoted _ h)
  | lineComment =>
    rw [state] at h
    cases h
  | blockComment =>
    rw [state] at h
    left
    simp only at h
    unfold normalizeBlockComment at h
    repeat' split at h
    all_goals first
      | exact empty ‹_›
      | cases h
  | binaryQuoted =>
    rw [state] at h
    left
    simp only at h
    unfold normalizeBinary at h
    repeat' split at h
    all_goals first
      | exact empty ‹_›
      | cases h
    simp

/-- Whatever follows, the keyword gives out an ASCII byte. -/
theorem awaitsLiteral_rest {more : Bytes} (h : awaitsLiteral s bytes = true)
    (run : normalizeRest s (bytes ++ more) = some output) :
    ∃ first tail, output = first :: tail ∧ first < 128 := by
  obtain ⟨state, -, keyword, -⟩ := awaitsLiteral_iff.mp h
  cases bytes with
  | nil => exact absurd (isBinaryKeyword_length keyword) (by decide)
  | cons byte rest =>
    obtain rfl := isBinaryKeyword_first keyword
    obtain ⟨count, first, tail, next, step, low⟩ : ∃ count first tail next,
        normalizeStep true s (asciiByte '_') (rest ++ more) = .consume count (first :: tail) next ∧
          first < 128 := by
      simp only [normalizeStep, state]
      unfold normalizeNormal
      dsimp only
      repeat' split
      all_goals first
        | exact ⟨_, _, _, _, rfl, by decide⟩
        | simp_all
    rw [cons_append, normalizeRest_consume step] at run
    obtain ⟨later, -, rfl⟩ := map_eq_some_iff.mp run
    exact ⟨first, tail ++ later, rfl, low⟩

/-- Bytes that are held back are few, or wait for the quote of a literal. -/
theorem normalizeLoop_held (run : normalizeLoop false s bytes = some (output, last, held)) :
    held.length ≤ 6 ∨ awaitsLiteral last held = true := by
  fun_induction normalizeLoop false s bytes generalizing output with
  | case1 s =>
    cases run
    exact .inl (by simp)
  | case2 s byte rest hold =>
    cases run
    obtain few | waits := normalizeStep_hold hold
    · exact .inl (by simp only [length_cons]; omega)
    · exact .inr waits
  | case3 s byte rest fail => cases run
  | case4 s byte rest count front next step ih =>
    obtain ⟨⟨later, last', held'⟩, tail, same⟩ := map_eq_some_iff.mp run
    cases same
    exact ih tail

/-- A round without output holds back everything. -/
theorem normalizeLoop_silent (run : normalizeLoop false s bytes = some ([], last, held)) :
    last = s ∧ held = bytes := by
  cases bytes with
  | nil =>
    rw [normalizeLoop] at run
    cases run
    exact ⟨rfl, rfl⟩
  | cons byte rest =>
    rw [normalizeLoop] at run
    have out := normalizeStep_givesOut false s byte rest
    cases step : normalizeStep false s byte rest with
    | hold =>
      rw [step] at run
      cases run
      exact ⟨rfl, rfl⟩
    | fail =>
      rw [step] at run
      cases run
    | consume count output next =>
      rw [step] at run out
      obtain ⟨first, more, rfl, -⟩ := out
      obtain ⟨_, -, same⟩ := map_eq_some_iff.mp run
      cases same

/-- A round that gives out no ASCII byte gives out the bytes that it consumes. -/
theorem normalizeLoop_length (run : normalizeLoop false s bytes = some (output, last, held))
    (high : ∀ byte ∈ output, 128 ≤ byte) : bytes.length = output.length + held.length := by
  fun_induction normalizeLoop false s bytes generalizing output with
  | case1 s | case2 s byte rest hold =>
    cases run
    simp
  | case3 s byte rest fail => cases run
  | case4 s byte rest count front next step ih =>
    obtain ⟨⟨later, last', held'⟩, tail, same⟩ := map_eq_some_iff.mp run
    cases same
    have out := normalizeStep_givesOut false s byte rest
    rw [step] at out
    obtain ⟨first, more, rfl, alone⟩ := out
    obtain ⟨rfl, rfl⟩ := alone (high first (by simp))
    have := ih tail fun byte member => high byte (mem_append_right _ member)
    simp only [length_append, length_cons, length_nil] at this ⊢
    rw [Nat.sub_self, drop_zero] at this
    omega

/-! ## Calls on chunks -/

/-- One call for each chunk, and a last one at the end of the file. -/
def normalizeChunks (normalizer : MysqlDumpBinaryLiteralNormalizer) :
    List Bytes → (last : Bytes) → Except Str Bytes
  | [], last => (normalizer.normalize last true).map (·.1)
  | chunk :: chunks, last => do
    let (output, next) ← normalizer.normalize chunk false
    return output ++ (← normalizeChunks next chunks last)

theorem normalize_last (normalizer : MysqlDumpBinaryLiteralNormalizer) (input : Bytes) :
    (normalizer.normalize input true).map (·.1) =
      (normalizeRest normalizer.toNormalizerState (normalizer.pending ++ input)).elim
        (.error unterminatedLiteral) .ok := by
  rw [MysqlDumpBinaryLiteralNormalizer.normalize, normalizeRest]
  cases normalizeLoop true normalizer.toNormalizerState (normalizer.pending ++ input) with
  | none => rfl
  | some result =>
    obtain ⟨output, last, held⟩ := result
    dsimp only
    cases last.state == .binaryQuoted <;> rfl

/-- However a file is cut into chunks, the calls give out the bytes of one call on the whole
file, or fail with it. -/
theorem normalizeChunks_eq (chunks : List Bytes) (last : Bytes) :
    normalizeChunks .init chunks last =
      (MysqlDumpBinaryLiteralNormalizer.init.normalize (chunks.flatten ++ last) true).map (·.1) := by
  generalize MysqlDumpBinaryLiteralNormalizer.init = normalizer
  induction chunks generalizing normalizer with
  | nil => rfl
  | cons chunk chunks ih =>
    obtain ⟨⟨output, next, held⟩, run⟩ := isSome_iff_exists.mp
      (normalizeLoop_isSome normalizer.toNormalizerState (normalizer.pending ++ chunk))
    -- What the first call holds back is read again with the chunks behind it.
    have rest := normalizeLoop_append run (chunks.flatten ++ last)
    have call : normalizer.normalize chunk false = .ok (output, { next with pending := held }) := by
      rw [MysqlDumpBinaryLiteralNormalizer.normalize, run]
      rfl
    rw [normalize_last, flatten_cons, append_assoc, ← append_assoc, rest,
      normalizeChunks, call]
    dsimp only [bind, Except.bind]
    rw [ih, normalize_last]
    cases normalizeRest next (held ++ (chunks.flatten ++ last)) <;> rfl

end Dbx.Guarantees.BinaryLiterals
