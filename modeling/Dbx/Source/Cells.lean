import Mathlib.Tactic.IntervalCases
import Dbx.Lib.Text

/-!
# Cell values and column descriptions

The `serde_json::Value` that the drivers return for a cell, and the text that
`serde_json::to_string` prints for it. Numbers are kept as their printed text and
arrays and objects as their compact text, so that two values are equal exactly when
they print the same.

`DataGridColumnInfo` is what a driver reports about a column
(`crates/dbx-core/src/data_grid_sql.rs:60-74`).
-/
namespace Dbx.Source

open Dbx.Lib.Text List

def isNumberChar (c : Char) : Bool :=
  c.isDigit || c == '-' || c == '+' || c == '.' || c == 'e' || c == 'E'

/-- A number as it is printed. -/
structure JsonNumber where
  text : Str
  nonempty : text ≠ []
  chars : text.all isNumberChar = true
  deriving DecidableEq

/-- An array or an object as it is printed. -/
structure JsonDocument where
  text : Str
  opened : text.head? = some '[' ∨ text.head? = some '\x7b'
  chars : text.all (32 ≤ ·.toNat) = true
  deriving DecidableEq

inductive Value where
  | null
  | bool (b : Bool)
  | number (n : JsonNumber)
  | string (s : Str)
  | document (d : JsonDocument)
  deriving DecidableEq

namespace Value

def hexDigit (n : Nat) : Char :=
  if n < 10 then Char.ofNat (48 + n) else Char.ofNat (87 + n)

/-- One character inside a JSON string. -/
def escapeChar (c : Char) : Str :=
  if c = '"' then ['\\', '"']
  else if c = '\\' then ['\\', '\\']
  else if c.toNat = 8 then ['\\', 'b']
  else if c.toNat = 9 then ['\\', 't']
  else if c.toNat = 10 then ['\\', 'n']
  else if c.toNat = 12 then ['\\', 'f']
  else if c.toNat = 13 then ['\\', 'r']
  else if c.toNat < 32 then
    ['\\', 'u', '0', '0', hexDigit (c.toNat / 16), hexDigit (c.toNat % 16)]
  else [c]

/-- `serde_json::to_string`. -/
def jsonStringify : Value → Str
  | null => "null".toList
  | bool true => "true".toList
  | bool false => "false".toList
  | number n => n.text
  | string s => '"' :: s.flatMap escapeChar ++ ['"']
  | document d => d.text

/-! ## The text determines the value -/

def hexValue (c : Char) : Nat := if c.toNat < 58 then c.toNat - 48 else c.toNat - 87

/-- Reads one escaped character back. -/
def unescapeChar : Str → Option (Char × Str)
  | '\\' :: 'b' :: rest => some (Char.ofNat 8, rest)
  | '\\' :: 't' :: rest => some (Char.ofNat 9, rest)
  | '\\' :: 'n' :: rest => some (Char.ofNat 10, rest)
  | '\\' :: 'f' :: rest => some (Char.ofNat 12, rest)
  | '\\' :: 'r' :: rest => some (Char.ofNat 13, rest)
  | '\\' :: 'u' :: _ :: _ :: h :: l :: rest =>
    some (Char.ofNat (hexValue h * 16 + hexValue l), rest)
  | '\\' :: c :: rest => some (c, rest)
  | c :: rest => some (c, rest)
  | [] => none

/-- A character that is not escaped stands for itself. -/
theorem escapeChar_plain {c : Char} (quote : c ≠ '"') (backslash : c ≠ '\\')
    (printable : 32 ≤ c.toNat) : escapeChar c = [c] := by
  unfold escapeChar
  rw [if_neg quote, if_neg backslash]
  repeat rw [if_neg (by omega)]

theorem unescapeChar_escapeChar (c : Char) (rest : Str) :
    unescapeChar (escapeChar c ++ rest) = some (c, rest) := by
  by_cases small : c.toNat < 32
  · revert c
    refine forall_char_lt fun n small => ?_
    interval_cases n <;> rfl
  by_cases quote : c = '"'
  · subst quote
    rfl
  by_cases backslash : c = '\\'
  · subst backslash
    rfl
  · rw [escapeChar_plain quote backslash (by omega), singleton_append]
    unfold unescapeChar
    split <;> simp_all

theorem flatMap_escapeChar_injective : Function.Injective (List.flatMap escapeChar) := by
  intro s t
  induction s generalizing t with
  | nil =>
    intro same
    cases t with
    | nil => rfl
    | cons c t =>
      have := unescapeChar_escapeChar c (t.flatMap escapeChar)
      rw [← flatMap_cons, ← same] at this
      cases this
  | cons a s ih =>
    intro same
    have read := unescapeChar_escapeChar a (s.flatMap escapeChar)
    rw [← flatMap_cons, same] at read
    cases t with
    | nil => cases read
    | cons b t =>
      rw [flatMap_cons, unescapeChar_escapeChar] at read
      injection read with read
      injection read with head tail
      rw [head, ih tail.symm]

theorem escapeChar_printable (c : Char) : (escapeChar c).all (32 ≤ ·.toNat) = true := by
  by_cases small : c.toNat < 32
  · revert c
    refine forall_char_lt fun n small => ?_
    interval_cases n <;> rfl
  by_cases quote : c = '"'
  · subst quote
    rfl
  by_cases backslash : c = '\\'
  · subst backslash
    rfl
  · rw [escapeChar_plain quote backslash (by omega)]
    simp
    omega

/-- The first character of a value's text tells its kind. -/
def kindOf (c : Char) : Nat :=
  if c = 'n' then 0 else if c = 't' then 1 else if c = 'f' then 2
  else if c = '"' then 3 else if isNumberChar c then 4 else 5

def kind : Value → Nat
  | null => 0
  | bool true => 1
  | bool false => 2
  | string _ => 3
  | number _ => 4
  | document _ => 5

theorem kindOf_numberChar {c : Char} (h : isNumberChar c = true) : kindOf c = 4 := by
  unfold kindOf
  have notIn (d : Char) (hd : isNumberChar d = false) : c ≠ d := by
    rintro rfl
    rw [h] at hd
    cases hd
  rw [if_neg (notIn _ (by decide)), if_neg (notIn _ (by decide)), if_neg (notIn _ (by decide)),
    if_neg (notIn _ (by decide)), if_pos h]

theorem head_jsonStringify (v : Value) : (jsonStringify v).head?.map kindOf = some v.kind := by
  cases v with
  | null => decide
  | bool b => cases b <;> decide
  | string s => rfl
  | number n =>
    obtain ⟨text, nonempty, chars⟩ := n
    cases text with
    | nil => exact absurd rfl nonempty
    | cons c rest =>
      rw [all_cons, Bool.and_eq_true] at chars
      simp [jsonStringify, kind, kindOf_numberChar chars.1]
  | document d =>
    rcases d.opened with opened | opened
    · simp only [jsonStringify, opened, kind]
      decide
    · simp only [jsonStringify, opened, kind]
      decide

theorem jsonStringify_injective : Function.Injective jsonStringify := by
  intro v u same
  have kinds : v.kind = u.kind := by
    have := head_jsonStringify v
    rw [same, head_jsonStringify u] at this
    exact (Option.some.inj this).symm
  match v, u, kinds with
  | null, null, _ | bool true, bool true, _ | bool false, bool false, _ => rfl
  | number n, number m, _ =>
    obtain ⟨text, _, _⟩ := n
    obtain ⟨text', _, _⟩ := m
    cases (same : text = text')
    rfl
  | string s, string t, _ =>
    have inner := (append_left_inj ['"']).mp (List.cons.inj same).2
    rw [flatMap_escapeChar_injective inner]
  | document d, document e, _ =>
    obtain ⟨text, _, _⟩ := d
    obtain ⟨text', _, _⟩ := e
    cases (same : text = text')
    rfl

theorem numberChar_printable {c : Char} (h : isNumberChar c = true) : 32 ≤ c.toNat := by
  by_contra small
  have none : ∀ c : Char, c.toNat < 32 → isNumberChar c = false := by
    refine forall_char_lt fun n small => ?_
    interval_cases n <;> decide
  rw [none c (by omega)] at h
  cases h

/-- No control character below U+0020 stands in a printed value. -/
theorem jsonStringify_printable (v : Value) : (jsonStringify v).all (32 ≤ ·.toNat) = true := by
  cases v with
  | null => rfl
  | bool b => cases b <;> rfl
  | number n =>
    refine all_eq_true.mpr fun c member => ?_
    simpa using numberChar_printable (all_eq_true.mp n.chars c member)
  | string s =>
    have inner : (s.flatMap escapeChar).all (32 ≤ ·.toNat) = true := by
      rw [all_flatMap]
      exact all_eq_true.mpr fun c _ => escapeChar_printable c
    simp only [jsonStringify, cons_append, all_cons, all_append, inner]
    rfl
  | document d => exact d.chars

end Value

structure DataGridColumnInfo where
  name : Str
  dataType : Str
  isNullable : Bool
  isPrimaryKey : Bool
  columnDefault : Option Str
  extra : Option Str
  deriving DecidableEq

def columnInfoFor (columns : List DataGridColumnInfo) (name : Str) : Option DataGridColumnInfo :=
  columns.find? fun column => eqIgnoreAsciiCase column.name name

end Dbx.Source
