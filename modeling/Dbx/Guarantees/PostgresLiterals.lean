import Dbx.Lib.Postgres
import Dbx.Source.TransferLiterals

/-!
# Text constants of a transfer to PostgreSQL

`quotePostgresStringLiteral` writes a text so that PostgreSQL reads it back whatever
`standard_conforming_strings` is. A text without backslashes and ASCII control characters is
the same in both readings; every other one is an escape string constant, read piece by
piece.
-/
namespace Dbx.Guarantees.PostgresLiterals

open Dbx.Lib.Text Dbx.Lib.Delimited Dbx.Lib.Postgres Dbx.Source Dbx.Source.TransferLiterals List

theorem hexValue_upperHexDigit {n : Nat} (h : n < 16) : hexValue (upperHexDigit n) = some n := by
  interval_cases n <;> decide

/-- Two hexadecimal digits are one byte, whatever follows them. -/
theorem readEscape_hex {n : Nat} (positive : 0 < n) (ascii : n < 128) (rest : Str) :
    readEscape ('x' :: upperHexDigit (n / 16) :: upperHexDigit (n % 16) :: rest) =
      some (Char.ofNat n, rest) := by
  have high := hexValue_upperHexDigit (show n / 16 < 16 by omega)
  have low := hexValue_upperHexDigit (Nat.mod_lt n (show 0 < 16 by omega))
  have value : n / 16 * 16 + n % 16 = n := Nat.div_add_mod' n 16
  simp only [readEscape, head?_cons, Option.bind_some, high, Option.isSome_some, and_self,
    if_true, readDigits, low, Nat.zero_mul, Nat.zero_add, value]
  unfold byteChar
  rw [if_pos ⟨positive, ascii⟩]
  rfl

/-- What a character becomes in an escape string constant. -/
inductive Escaped (c : Char) : Str → Prop
  | letter {letter : Char} (printable : isAsciiControl letter = false)
      (read : ∀ rest, readEscape (letter :: rest) = some (c, rest)) : Escaped c ['\\', letter]
  | quote (same : c = '\'') : Escaped c ['\'', '\'']
  | hex (control : isAsciiControl c = true) :
      Escaped c ['\\', 'x', upperHexDigit (c.toNat / 16), upperHexDigit (c.toNat % 16)]
  | self (noBackslash : c ≠ '\\') (noQuote : c ≠ '\'') (printable : isAsciiControl c = false) :
      Escaped c [c]

theorem escapePostgresChar_escaped {c : Char} : Escaped c (escapePostgresChar c) := by
  unfold escapePostgresChar
  iterate 6
    split
    · next same => exact .letter rfl fun rest => by rw [same]; rfl
  split
  · next same => exact .quote same
  split
  · next control => exact .hex control
  · next noBackslash _ _ _ _ _ noQuote printable =>
    exact .self noBackslash noQuote (Bool.eq_false_iff.mpr printable)

variable {c : Char}

theorem isAsciiControl_lt (control : isAsciiControl c = true) : c.toNat < 128 := by
  unfold isAsciiControl at control
  simp only [Bool.or_eq_true, decide_eq_true_eq, beq_iff_eq] at control
  omega

theorem Escaped.reads {piece : Str} (noNul : c ≠ Char.ofNat 0) (escaped : Escaped c piece) :
    ReadsChar true piece c := by
  cases escaped with
  | letter _ read => exact fun tail => readBody_escape (read tail)
  | quote same => rw [same]; exact readBody_quote
  | hex control =>
    intro tail
    have positive : 0 < c.toNat := by
      apply Nat.pos_of_ne_zero
      intro zero
      exact noNul (by rw [← zero, Char.ofNat_toNat])
    have read := readEscape_hex positive (isAsciiControl_lt control) tail
    rw [Char.ofNat_toNat] at read
    exact readBody_escape read
  | self noBackslash noQuote _ => exact readsChar_self noQuote fun escape => noBackslash escape.2

theorem Escaped.printable {piece : Str} (escaped : Escaped c piece) :
    ∀ d ∈ piece, isAsciiControl d = false := by
  have digit : ∀ n, n < 16 → isAsciiControl (upperHexDigit n) = false := by
    intro n small
    interval_cases n <;> decide
  cases escaped with
  | letter printable _ => simpa using ⟨by decide, printable⟩
  | quote _ => simp [isAsciiControl]
  | hex control =>
    have small := isAsciiControl_lt control
    simpa using ⟨by decide, by decide, digit _ (by omega), digit _ (by omega)⟩
  | self _ _ printable => simpa using printable

theorem any_eq_false {value : Str} (h : value.any isAsciiControl = false) (member : c ∈ value) :
    isAsciiControl c = false := by
  rw [List.any_eq_false] at h
  exact Bool.eq_false_iff.mpr (h c member)

theorem mem_quoteStringLiteral {value : Str} (member : c ∈ quoteStringLiteral value) :
    c = '\'' ∨ c ∈ value := by
  unfold quoteStringLiteral enclose at member
  simp only [singleQuotes, mem_cons, mem_append, not_mem_nil, or_false] at member
  obtain quote | inside | quote := member
  · exact .inl quote
  · exact .inr (mem_of_mem_double inside)
  · exact .inl quote

/-- Whatever `standard_conforming_strings` is, the literal of a text without NUL is one string
constant with that value, and no ASCII control character stands in it. -/
theorem quotePostgresStringLiteral_reads (value : Str) (noNul : Char.ofNat 0 ∉ value) :
    (∀ standardConforming : Bool,
      readConstant standardConforming (quotePostgresStringLiteral value) = some (value, [])) ∧
    ∀ c ∈ quotePostgresStringLiteral value, isAsciiControl c = false := by
  unfold quotePostgresStringLiteral
  split
  · next plain =>
    simp only [Bool.and_eq_true, Bool.not_eq_true', contains_eq_mem,
      decide_eq_false_iff_not] at plain
    obtain ⟨noBackslash, printable⟩ := plain
    constructor
    · intro standardConforming
      apply readBody_flatMap _ (by simp)
      intro c member
      apply readsChar_double
      intro escape
      exact noBackslash (escape.2 ▸ member)
    · intro c member
      obtain quote | inside := mem_quoteStringLiteral member
      · rw [quote]
        decide
      · exact any_eq_false printable inside
  · constructor
    · intro standardConforming
      apply readBody_flatMap _ (by simp)
      intro c member
      exact escapePostgresChar_escaped.reads fun nul => noNul (nul ▸ member)
    · intro c member
      simp only [cons_append, mem_cons, mem_append, mem_flatMap,
        not_mem_nil, or_false] at member
      obtain rfl | rfl | ⟨d, _, piece⟩ | rfl := member
      · decide
      · decide
      · exact escapePostgresChar_escaped.printable c piece
      · decide

/-- A line feed, a quote and a backslash. -/
theorem quotePostgresStringLiteral_reads_lines : Char.ofNat 0 ∉ "a\n'\\".toList ∧
      (readConstant true (quotePostgresStringLiteral "a\n'\\".toList) =
          some ("a\n'\\".toList, []) ∧
        (quotePostgresStringLiteral "a\n'\\".toList).all (fun c => !isAsciiControl c) = true) := by
  have noNul : Char.ofNat 0 ∉ "a\n'\\".toList := by decide
  obtain ⟨read, printable⟩ := quotePostgresStringLiteral_reads "a\n'\\".toList noNul
  constructor
  · exact noNul
  · exact ⟨read true, all_eq_true.mpr fun c member => by rw [printable c member]; rfl⟩

/-- The control characters behind ASCII are left as they are. -/
theorem next_line_written_raw :
    quotePostgresStringLiteral [Char.ofNat 0x85] = ['\'', Char.ofNat 0x85, '\''] ∧
      isControl (Char.ofNat 0x85) = true := by
  constructor <;> decide

end Dbx.Guarantees.PostgresLiterals
