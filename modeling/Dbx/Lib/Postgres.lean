import Dbx.Lib.Delimited

/-!
# String constants and array texts of PostgreSQL

`readConstant` reads a string constant as the lexer of PostgreSQL does: a plain constant,
which knows backslash escapes only with `standard_conforming_strings` off, and an escape
string constant `E'..'`. An escape that names a single byte is read here where that byte is
a character of its own. The continuation of a constant on a later line belongs to the text
behind it.

`readArray` reads the text of an array: braces, commas, bare elements, and elements in
double quotes with backslash escapes.
-/
namespace Dbx.Lib.Postgres

open Dbx.Lib.Text Dbx.Lib.Delimited List Option Bool

/-! ## String constants -/

def octalValue (c : Char) : Option Nat :=
  if 48 ≤ c.toNat ∧ c.toNat < 56 then some (c.toNat - 48) else none

def hexValue (c : Char) : Option Nat :=
  if 48 ≤ c.toNat ∧ c.toNat < 58 then some (c.toNat - 48)
  else if 65 ≤ c.toNat ∧ c.toNat < 71 then some (c.toNat - 55)
  else if 97 ≤ c.toNat ∧ c.toNat < 103 then some (c.toNat - 87)
  else none

/-- Reads digits, at most as many as the count says. -/
def readDigits (digit : Char → Option Nat) (base : Nat) : Nat → Nat → Str → Nat × Str
  | 0, value, text => (value, text)
  | _ + 1, value, [] => (value, [])
  | count + 1, value, c :: rest =>
    match digit c with
    | some d => readDigits digit base count (value * base + d) rest
    | none => (value, c :: rest)

theorem readDigits_length (digit : Char → Option Nat) (base count value : Nat) (text : Str) :
    (readDigits digit base count value text).2.length ≤ text.length := by
  induction count generalizing value text with
  | zero => exact Nat.le_refl _
  | succ count ih =>
    cases text with
    | nil => exact Nat.le_refl _
    | cons c rest =>
      unfold readDigits
      split
      · exact Nat.le_succ_of_le (ih _ rest)
      · exact Nat.le_refl _

/-- A byte that is a character of its own. -/
def byteChar (n : Nat) : Option Char := if 0 < n ∧ n < 128 then some (Char.ofNat n) else none

def escapedChar (c : Char) : Char :=
  if c = 'b' then Char.ofNat 8 else if c = 'f' then Char.ofNat 12
  else if c = 'n' then Char.ofNat 10 else if c = 'r' then Char.ofNat 13
  else if c = 't' then Char.ofNat 9 else if c = 'v' then Char.ofNat 11
  else c

/-- A code point of exactly so many hexadecimal digits. -/
def readCodePoint (count : Nat) (text : Str) : Option (Char × Str) :=
  if (text.take count).length = count ∧ (text.take count).all (fun c => (hexValue c).isSome) then
    let read := readDigits hexValue 16 count 0 text
    if 0 < read.1 ∧ Nat.isValidChar read.1 then some (Char.ofNat read.1, read.2) else none
  else none

/-- The character that stands behind a backslash. -/
def readEscape : Str → Option (Char × Str)
  | [] => none
  | c :: rest =>
    if c = 'x' ∧ (rest.head?.bind hexValue).isSome then
      let read := readDigits hexValue 16 2 0 rest
      (byteChar read.1).map fun byte => (byte, read.2)
    else if c = 'u' then readCodePoint 4 rest
    else if c = 'U' then readCodePoint 8 rest
    else if (octalValue c).isSome then
      let read := readDigits octalValue 8 3 0 (c :: rest)
      (byteChar (read.1 % 256)).map fun byte => (byte, read.2)
    else some (escapedChar c, rest)

variable {text rest : Str} {c : Char}

theorem readEscape_length (h : readEscape text = some (c, rest)) : rest.length ≤ text.length := by
  cases text with
  | nil => exact absurd h (by simp [readEscape])
  | cons first behind =>
    have codePoint : ∀ count, readCodePoint count behind = some (c, rest) →
        rest.length ≤ behind.length := by
      intro count read
      unfold readCodePoint at read
      split at read
      · dsimp only at read
        split at read
        · injection read with read
          injection read with _ same
          rw [← same]
          exact readDigits_length _ _ _ _ _
        · cases read
      · cases read
    rw [readEscape] at h
    rw [length_cons]
    split at h
    · obtain ⟨byte, _, same⟩ := map_eq_some_iff.mp h
      injection same with _ same
      have := readDigits_length hexValue 16 2 0 behind
      rw [same] at this
      omega
    split at h
    · have := codePoint 4 h
      omega
    split at h
    · have := codePoint 8 h
      omega
    split at h
    · obtain ⟨byte, _, same⟩ := map_eq_some_iff.mp h
      injection same with _ same
      have := readDigits_length octalValue 8 3 0 (first :: behind)
      rw [same, length_cons] at this
      exact this
    · injection h with h
      injection h with _ same
      rw [same]
      omega

/-- The rest of a constant behind its opening quote: its value and what follows it. -/
def readBody (escapes : Bool) (text : Str) : Option (Str × Str) :=
  match text with
  | [] => none
  | c :: rest =>
    if c = '\'' then
      match rest with
      | '\'' :: more => (readBody escapes more).map fun (value, behind) => ('\'' :: value, behind)
      | rest => some ([], rest)
    else if escapes = true ∧ c = '\\' then
      match _read : readEscape rest with
      | some (escaped, more) =>
        (readBody escapes more).map fun (value, behind) => (escaped :: value, behind)
      | none => none
    else (readBody escapes rest).map fun (value, behind) => (c :: value, behind)
  termination_by text.length
  decreasing_by
    · simp only [List.length_cons]
      omega
    · have := readEscape_length _read
      simp
      omega
    · simp

/-- A string constant at the start of a text: its value and what follows it. -/
def readConstant (standardConforming : Bool) : Str → Option (Str × Str)
  | '\'' :: rest => readBody (!standardConforming) rest
  | 'E' :: '\'' :: rest | 'e' :: '\'' :: rest => readBody true rest
  | _ => none

variable {rest : Str}

section Body

variable {escapes : Bool}

theorem readBody_close (stop : rest.head? ≠ some '\'') :
    readBody escapes ('\'' :: rest) = some ([], rest) := by
  rw [readBody.eq_def]
  dsimp only
  rw [if_pos rfl]
  split
  · exact absurd rfl stop
  · rfl

theorem readBody_quote (rest : Str) : readBody escapes ('\'' :: '\'' :: rest) =
      (readBody escapes rest).map fun (value, behind) => ('\'' :: value, behind) := by
  rw [readBody.eq_def]
  rfl

theorem readBody_char (noQuote : c ≠ '\'') (noEscape : ¬(escapes = true ∧ c = '\\')) :
    readBody escapes (c :: rest) =
      (readBody escapes rest).map fun (value, behind) => (c :: value, behind) := by
  rw [readBody.eq_def]
  dsimp only
  rw [if_neg noQuote, if_neg noEscape]

theorem readBody_escape (read : readEscape text = some (c, rest)) : readBody true ('\\' :: text) =
      (readBody true rest).map fun (value, behind) => (c :: value, behind) := by
  rw [readBody.eq_def]
  dsimp only
  rw [if_neg (by decide), if_pos ⟨rfl, rfl⟩]
  split
  · next escaped more read' =>
    rw [read] at read'
    injection read' with same
    injection same with chars texts
    rw [chars, texts]
  · next none =>
    rw [read] at none
    cases none

/-- Wherever the piece stands in a constant, it is one character of the value. -/
def ReadsChar (escapes : Bool) (piece : Str) (c : Char) : Prop :=
  ∀ tail, readBody escapes (piece ++ tail) =
    (readBody escapes tail).map fun (value, behind) => (c :: value, behind)

theorem readsChar_self (noQuote : c ≠ '\'') (noEscape : ¬(escapes = true ∧ c = '\\')) :
    ReadsChar escapes [c] c :=
  fun tail => readBody_char noQuote noEscape

theorem readsChar_double (noEscape : ¬(escapes = true ∧ c = '\\')) :
    ReadsChar escapes (if c == '\'' then ['\'', '\''] else [c]) c := by
  by_cases quote : c = '\''
  · rw [quote]
    exact readBody_quote
  · rw [if_neg (by simpa using quote)]
    exact readsChar_self quote noEscape

/-- A value whose characters are written as pieces is read back, up to the closing quote. -/
theorem readBody_flatMap {encode : Char → Str} {value : Str}
    (each : ∀ c ∈ value, ReadsChar escapes (encode c) c) (stop : rest.head? ≠ some '\'') :
    readBody escapes (value.flatMap encode ++ '\'' :: rest) = some (value, rest) := by
  induction value with
  | nil => exact readBody_close stop
  | cons c value ih =>
    rw [flatMap_cons, append_assoc, each c mem_cons_self,
      ih (fun d member => each d (mem_cons_of_mem c member))]
    rfl

end Body

/-! ## Array texts -/

inductive ArrayValue where
  | null
  | text (value : Str)
  | array (items : List ArrayValue)

/-- `array_isspace`. -/
def isArraySpace (c : Char) : Bool := (9 ≤ c.toNat && c.toNat ≤ 13) || c == ' '

def skipSpace (text : Str) : Str := text.dropWhile isArraySpace

/-- The rest of an element behind its opening double quote. -/
def readQuoted : Str → Option (Str × Str)
  | [] => none
  | c :: rest =>
    if c = '"' then some ([], rest)
    else if c = '\\' then
      match rest with
      | [] => none
      | escaped :: more => (readQuoted more).map fun (value, behind) => (escaped :: value, behind)
    else (readQuoted rest).map fun (value, behind) => (c :: value, behind)

theorem readQuoted_close : readQuoted ('"' :: rest) = some ([], rest) := by
  rw [readQuoted.eq_def]
  dsimp only
  rw [if_pos rfl]

theorem readQuoted_escape (c : Char) (rest : Str) : readQuoted ('\\' :: c :: rest) =
      (readQuoted rest).map fun (value, behind) => (c :: value, behind) := by
  simp [readQuoted]

theorem readQuoted_char (noQuote : c ≠ '"') (noEscape : c ≠ '\\') (rest : Str) :
    readQuoted (c :: rest) =
      (readQuoted rest).map fun (value, behind) => (c :: value, behind) := by
  rw [readQuoted.eq_def]
  dsimp only
  rw [if_neg noQuote, if_neg noEscape]

def bareValue (escaped : Bool) (value : Str) : Option ArrayValue :=
  if value = [] then none
  else if !escaped && eqIgnoreAsciiCase value "null".toList then some .null
  else some (.text value)

/-- An element without quotes; blanks count only between other characters. -/
def readBare (value blanks : Str) (escaped : Bool) : Str → Option (ArrayValue × Str)
  | [] => none
  | c :: rest =>
    if c = ',' ∨ c = '\x7d' then (bareValue escaped value).map fun element => (element, c :: rest)
    else if c = '\x7b' ∨ c = '"' then none
    else if c = '\\' then
      match rest with
      | [] => none
      | next :: more => readBare (value ++ blanks ++ [next]) [] true more
    else if isArraySpace c then readBare value (blanks ++ [c]) escaped rest
    else readBare (value ++ blanks ++ [c]) [] escaped rest

mutual

/-- One element: an array in braces, a quoted text or a bare one. -/
def readElement : Nat → Str → Option (ArrayValue × Str)
  | 0, _ => none
  | fuel + 1, text =>
    match skipSpace text with
    | '\x7b' :: rest =>
      match skipSpace rest with
      | '\x7d' :: behind => some (.array [], behind)
      | rest => (readElements fuel rest).map fun (items, behind) => (.array items, behind)
    | '"' :: rest => (readQuoted rest).map fun (value, behind) => (.text value, behind)
    | rest => readBare [] [] false rest

/-- The elements of an array up to its closing brace. -/
def readElements : Nat → Str → Option (List ArrayValue × Str)
  | 0, _ => none
  | fuel + 1, text =>
    match readElement fuel text with
    | none => none
    | some (first, rest) =>
      match skipSpace rest with
      | '\x7d' :: behind => some ([first], behind)
      | ',' :: rest => (readElements fuel rest).map fun (items, behind) => (first :: items, behind)
      | _ => none

end

/-- The text of a whole array. Every call of the reader takes a character of the text or
follows one that does, so that the fuel suffices. -/
def readArray (text : Str) : Option ArrayValue :=
  match readElement (2 * text.length + 2) text with
  | some (.array items, rest) => if rest.all isArraySpace then some (.array items) else none
  | _ => none

/-- A character that stands for itself outside quotes. -/
def isBareChar (c : Char) : Bool :=
  c != ',' && c != '\x7d' && c != '\x7b' && c != '"' && c != '\\' && !isArraySpace c

theorem readBare_char (bare : isBareChar c = true) (value : Str) (escaped : Bool) (rest : Str) :
    readBare value [] escaped (c :: rest) = readBare (value ++ [c]) [] escaped rest := by
  simp only [isBareChar, and_eq_true, bne_iff_ne, ne_eq, not_eq_true'] at bare
  obtain ⟨⟨⟨⟨⟨comma, close⟩, opening⟩, quote⟩, backslash⟩, space⟩ := bare
  rw [readBare.eq_def]
  dsimp only
  rw [if_neg (by simp [comma, close]), if_neg (by simp [opening, quote]), if_neg backslash, space,
    if_neg (by decide), append_nil]

/-- A comma or the closing brace stands behind an element. -/
def Stops (rest : Str) : Prop := rest.head? = some ',' ∨ rest.head? = some '\x7d'

theorem readBare_stop (stops : Stops rest) {value : Str} {escaped : Bool} :
    readBare value [] escaped rest =
      (bareValue escaped value).map fun element => (element, rest) := by
  cases rest with
  | nil => obtain none | none := stops <;> cases none
  | cons c rest =>
    have stop : c = ',' ∨ c = '\x7d' := by
      simpa only [Stops, head?_cons, Option.some.injEq] using stops
    rw [readBare.eq_def]
    dsimp only
    rw [if_pos stop]

theorem readBare_word {word : Str} (bare : word.all isBareChar = true) (stops : Stops rest)
    (value : Str) :
    readBare value [] false (word ++ rest) =
      (bareValue false (value ++ word)).map fun element => (element, rest) := by
  induction word generalizing value with
  | nil =>
    rw [append_nil]
    exact readBare_stop stops
  | cons c word ih =>
    rw [all_cons, and_eq_true] at bare
    rw [cons_append, readBare_char bare.1, ih bare.2, append_assoc]
    rfl

theorem skipSpace_cons (noSpace : isArraySpace c = false) (rest : Str) :
    skipSpace (c :: rest) = c :: rest := by
  unfold skipSpace
  rw [dropWhile_cons_of_neg (by simp [noSpace])]

section Elements

variable (fuel : Nat)

theorem readElement_quoted (rest : Str) : readElement (fuel + 1) ('"' :: rest) =
      (readQuoted rest).map fun (value, behind) => (.text value, behind) := by
  rfl

theorem readElement_word {word : Str} (bare : (c :: word).all isBareChar = true)
    (stops : Stops rest) :
    readElement (fuel + 1) (c :: word ++ rest) =
      (bareValue false (c :: word)).map fun element => (element, rest) := by
  have first := (and_eq_true _ _ ▸ all_cons ▸ bare : _ ∧ _).1
  simp only [isBareChar, and_eq_true, bne_iff_ne, ne_eq, not_eq_true'] at first
  obtain ⟨⟨⟨⟨⟨_, _⟩, opening⟩, quote⟩, _⟩, space⟩ := first
  have read := readBare_word bare stops []
  rw [readElement, cons_append, skipSpace_cons space]
  split
  · next same => exact absurd (cons.inj same).1 opening
  · next same => exact absurd (cons.inj same).1 quote
  · exact read

theorem readElement_brace (rest : Str) : readElement (fuel + 1) ('\x7b' :: rest) =
      match skipSpace rest with
      | '\x7d' :: behind => some (.array [], behind)
      | rest => (readElements fuel rest).map fun (items, behind) => (.array items, behind) := by
  rfl

theorem readElement_empty :
    readElement (fuel + 1) ('\x7b' :: '\x7d' :: rest) = some (.array [], rest) := by
  rfl

theorem readElement_array (noSpace : isArraySpace c = false) (noClose : c ≠ '\x7d') (rest : Str) :
    readElement (fuel + 1) ('\x7b' :: c :: rest) =
      (readElements fuel (c :: rest)).map fun (items, behind) => (.array items, behind) := by
  rw [readElement_brace, skipSpace_cons noSpace]
  split
  · next same => exact absurd (cons.inj same).1 noClose
  · rfl

variable {fuel}

theorem readElements_last {item : ArrayValue}
    (read : readElement fuel text = some (item, '\x7d' :: rest)) :
    readElements (fuel + 1) text = some ([item], rest) := by
  rw [readElements, read]
  rfl

theorem readElements_next {item : ArrayValue}
    (read : readElement fuel text = some (item, ',' :: rest)) :
    readElements (fuel + 1) text =
      (readElements fuel rest).map fun (items, behind) => (item :: items, behind) := by
  rw [readElements, read]
  rfl

/-- The first element of a list that was read is the one that was read there. -/
theorem readElements_head {items : List ArrayValue}
    (read : readElements (fuel + 1) text = some (items, rest)) :
    ∃ item left others, readElement fuel text = some (item, left) ∧ items = item :: others := by
  rw [readElements] at read
  split at read
  · cases read
  next item left first =>
  split at read
  · injection read with read
    injection read with same _
    exact ⟨item, left, [], first, same.symm⟩
  · obtain ⟨⟨others, behind⟩, _, same⟩ := map_eq_some_iff.mp read
    injection same with same _
    exact ⟨item, left, others, first, same.symm⟩
  · cases read

end Elements

end Dbx.Lib.Postgres
