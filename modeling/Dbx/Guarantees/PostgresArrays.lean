import Dbx.Lib.Postgres
import Dbx.Source.TransferLiterals

/-!
# Array literals of a transfer to PostgreSQL

`formatPgArrayElement` escapes the backslashes and double quotes of a text for the array
format, and `formatPgArraySqlLiteral` doubles every backslash once more for the string
constant around it. A plain constant under `standard_conforming_strings` gives the doubled
text back, so that the array reader undoes only one of the two: a text with a backslash
comes back longer, and one with a double quote ends there. Every other array is read back.
-/
namespace Dbx.Guarantees.PostgresArrays

open Dbx.Lib.Text Dbx.Lib.Delimited Dbx.Lib.Postgres Dbx.Source Dbx.Source.TransferLiterals
open List Option
open Json (behind joinWith_behind)

/-! ## The array that was meant -/

mutual

/-- The elements with their texts; an object stands there as its compact text. -/
def arrayValue : Json → ArrayValue
  | .null => .null
  | .bool b => .text (if b then "true".toList else "false".toList)
  | .number n => .text n.text
  | .string s => .text s
  | .object members => .text (Json.object members).print
  | .array items => .array (arrayValues items)

def arrayValues : List Json → List ArrayValue
  | [] => []
  | item :: items => arrayValue item :: arrayValues items

end

/-- Neither a backslash nor a double quote stands in the text. -/
def plainText (s : Str) : Bool := !s.contains '\\' && !s.contains '"'

mutual

/-- Every text of the array, at any depth, is plain. -/
def plainTexts : Json → Bool
  | .null | .bool _ | .number _ => true
  | .string s => plainText s
  | .object members => plainText (Json.object members).print
  | .array items => plainItems items

def plainItems : List Json → Bool
  | [] => true
  | item :: items => plainTexts item && plainItems items

end

/-! ## One quoted text -/

/-- What the array reader makes of a text. -/
def readBack : Str → Str
  | [] => []
  | c :: s =>
    if c = '"' then ['\\']
    else if c = '\\' then '\\' :: '\\' :: readBack s
    else c :: readBack s

/-- A character of a text in the array that PostgreSQL is given. -/
def writtenChar (c : Char) : Str :=
  if c = '\\' then ['\\', '\\', '\\', '\\'] else if c = '"' then ['\\', '\\', '"'] else [c]

variable (s : Str)

theorem double_escapeArrayText : double '\\' (escapeArrayText s) = s.flatMap writtenChar := by
  induction s with
  | nil => rfl
  | cons c s ih =>
    have step : escapeArrayText (c :: s) =
        (double '\\' [c]).flatMap (fun c => if c == '"' then ['\\', '"'] else [c]) ++
          escapeArrayText s := by
      unfold escapeArrayText
      rw [show c :: s = [c] ++ s from rfl, double_append, flatMap_append]
    rw [step, double_append, ih, flatMap_cons]
    congr 1
    unfold writtenChar
    by_cases backslash : c = '\\'
    · rw [backslash]
      rfl
    by_cases quote : c = '"'
    · rw [quote]
      rfl
    · simp [double, backslash, quote]

theorem writtenChar_quote : writtenChar '"' = ['\\', '\\', '"'] := by decide

theorem writtenChar_backslash : writtenChar '\\' = ['\\', '\\', '\\', '\\'] := by decide

theorem writtenChar_other {c : Char} (noQuote : c ≠ '"') (noBackslash : c ≠ '\\') :
    writtenChar c = [c] := by
  unfold writtenChar
  rw [if_neg noBackslash, if_neg noQuote]

/-- The reader takes a text up to its first double quote. -/
theorem readQuoted_written {rest : Str} : ∃ left,
    readQuoted (s.flatMap writtenChar ++ '"' :: rest) = some (readBack s, left) ∧
      ('"' ∉ s → left = rest) := by
  induction s with
  | nil => exact ⟨rest, readQuoted_close, fun _ => rfl⟩
  | cons c s ih =>
    obtain ⟨left, read, same⟩ := ih
    have later : '"' ∉ c :: s → left = rest :=
      fun none => same fun member => none (mem_cons_of_mem c member)
    rw [flatMap_cons, append_assoc]
    unfold readBack
    by_cases quote : c = '"'
    · refine ⟨s.flatMap writtenChar ++ '"' :: rest, ?_,
        fun none => absurd mem_cons_self (quote ▸ none)⟩
      rw [quote, writtenChar_quote, if_pos rfl]
      simp only [cons_append, nil_append]
      rw [readQuoted_escape, readQuoted_close]
      rfl
    by_cases backslash : c = '\\'
    · refine ⟨left, ?_, later⟩
      rw [if_neg quote, if_pos backslash, backslash, writtenChar_backslash]
      simp only [cons_append, nil_append]
      rw [readQuoted_escape, readQuoted_escape, read]
      rfl
    · refine ⟨left, ?_, later⟩
      rw [if_neg quote, if_neg backslash, writtenChar_other quote backslash]
      simp only [cons_append, nil_append]
      rw [readQuoted_char quote backslash, read]
      rfl

theorem backslashes_readBack_ne (k : Nat) (s : Str) :
    List.replicate (k + 1) '\\' ++ readBack s ≠ s := by
  induction s generalizing k with
  | nil => simp
  | cons c s ih =>
    intro same
    rw [replicate_succ, cons_append, cons.injEq] at same
    obtain ⟨rfl, tails⟩ := same
    apply ih (k + 1)
    rw [replicate_succ', replicate_succ', append_assoc, append_assoc]
    exact tails

theorem readBack_eq_iff : readBack s = s ↔ plainText s = true := by
  induction s with
  | nil => simp [readBack, plainText]
  | cons c s ih =>
    unfold readBack
    by_cases quote : c = '"'
    · simp [quote, plainText]
    by_cases backslash : c = '\\'
    · have other := backslashes_readBack_ne 0 s
      simp only [zero_add, replicate_one, cons_append, nil_append] at other
      simp [backslash, plainText, other]
    · rw [if_neg quote, if_neg backslash, cons.injEq, eq_self, true_and, ih]
      simp [plainText, Ne.symm backslash, Ne.symm quote]

/-! ## The text that PostgreSQL reads as an array -/

/-- An element as it stands in the value of the string constant. -/
def written (item : Json) : Str := double '\\' (formatPgArrayElement item)

def writtenItems (items : List Json) : List Str := (formatPgArrayElements items).map (double '\\')

theorem double_joinWith (texts : List Str) :
    double '\\' (joinWith [','] texts) = joinWith [','] (texts.map (double '\\')) := by
  induction texts with
  | nil => rfl
  | cons text texts ih =>
    cases texts with
    | nil => rfl
    | cons next texts =>
      simp only [joinWith, map_cons, double_append] at ih ⊢
      rw [ih]
      rfl

variable {items : List Json}

theorem written_array :
    written (.array items) = '\x7b' :: joinWith [','] (writtenItems items) ++ ['\x7d'] := by
  unfold written writtenItems
  rw [formatPgArrayElement, double_append, double_cons_of_ne (by decide), double_joinWith]
  rfl

theorem written_quoted :
    double '\\' (quotedArrayText s) = '"' :: s.flatMap writtenChar ++ ['"'] := by
  unfold quotedArrayText
  rw [double_append, double_cons_of_ne (by decide), double_escapeArrayText]
  rfl

/-- The string constant gives the array text with its backslashes doubled. -/
theorem readConstant_literal (items : List Json) :
    readConstant true (formatPgArraySqlLiteral items) = some (written (.array items), []) := by
  apply readBody_flatMap _ (by simp)
  intro c _
  exact readsChar_double (by simp)

theorem stops_behind {texts : List Str} {rest : Str} : Stops (behind '\x7d' texts rest) := by
  cases texts with
  | nil => exact .inr rfl
  | cons text texts => exact .inl rfl

/-- How a text is read back: as the value that was meant if it is plain, and never as that
value if it is not. -/
structure ReadsBack {α : Type} (plain : Bool) (result : Option (α × Str)) (value : α)
    (rest : Str) : Prop where
  good : plain = true → result = some (value, rest)
  bad : plain = false → ∀ r, result = some r → r.1 ≠ value

theorem ReadsBack.of_eq {α : Type} {result : Option (α × Str)} {value : α} {rest : Str}
    (h : result = some (value, rest)) : ReadsBack true result value rest where
  good := fun _ => h
  bad := fun no => by cases no

theorem readElement_text (fuel : Nat) (s rest : Str) :
    ReadsBack (plainText s) (readElement (fuel + 1) ('"' :: s.flatMap writtenChar ++ '"' :: rest))
      (.text s) rest := by
  obtain ⟨left, read, same⟩ := readQuoted_written s
  rw [cons_append, readElement_quoted, read]
  constructor
  · intro plain
    have noQuote : '"' ∉ s := by
      simp only [plainText, Bool.and_eq_true, Bool.not_eq_true', contains_eq_mem,
        decide_eq_false_iff_not] at plain
      exact plain.2
    rw [map_some, (readBack_eq_iff s).mpr plain, same noQuote]
  · intro notPlain r result meant
    have changed : readBack s ≠ s := by
      rw [ne_eq, readBack_eq_iff, notPlain]
      decide
    injection result with result
    rw [← result] at meant
    injection meant with meant
    exact changed meant

/-! ## Bare words -/

theorem isNumberChar_bare {c : Char} (number : isNumberChar c = true) :
    isBareChar c = true ∧ c ≠ '\\' ∧ c.toLower ≠ 'n' := by
  have small : c.toNat < 128 := by
    by_contra large
    have digit : c.isDigit = false := by
      by_contra digit
      have := isAlphanum_lt (c := c) (by simp [Char.isAlphanum, Bool.eq_true_of_not_eq_false digit])
      omega
    have other : ∀ d : Char, d.toNat < 128 → (c == d) = false := by
      intro d bound
      rw [beq_eq_false_iff_ne]
      intro same
      rw [same] at large
      exact large bound
    simp only [isNumberChar, digit, other '-' (by decide), other '+' (by decide),
      other '.' (by decide), other 'e' (by decide), other 'E' (by decide), Bool.or_self] at number
    cases number
  have table : ∀ n < 128, isNumberChar (Char.ofNat n) = true → isBareChar (Char.ofNat n) = true ∧
      Char.ofNat n ≠ '\\' ∧ (Char.ofNat n).toLower ≠ 'n' := by decide
  have entry := table c.toNat small
  rw [Char.ofNat_toNat] at entry
  exact entry number

theorem readElement_number (fuel : Nat) (n : JsonNumber) {rest : Str} (stops : Stops rest) :
    readElement (fuel + 1) (n.text ++ rest) = some (.text n.text, rest) := by
  obtain ⟨text, nonempty, chars⟩ := n
  cases text with
  | nil => exact absurd rfl nonempty
  | cons c word =>
    rw [List.all_eq_true] at chars
    have bare : (c :: word).all isBareChar = true :=
      all_eq_true.mpr fun d member => (isNumberChar_bare (chars d member)).1
    have notNull : eqIgnoreAsciiCase (c :: word) "null".toList = false := by
      have first := (isNumberChar_bare (chars c mem_cons_self)).2.2
      simp [eqIgnoreAsciiCase, first]
    rw [readElement_word fuel bare stops]
    unfold bareValue
    rw [if_neg (cons_ne_nil c word), notNull]
    rfl

theorem double_number (n : JsonNumber) : double '\\' n.text = n.text := by
  apply double_eq_self
  intro member
  exact (isNumberChar_bare (all_eq_true.mp n.chars _ member)).2.1 rfl

/-! ## Elements and their lists -/

theorem written_string : written (.string s) = '"' :: s.flatMap writtenChar ++ ['"'] := by
  unfold written
  rw [formatPgArrayElement, written_quoted]

theorem written_object (members : List (Str × Json)) : written (.object members) =
      '"' :: (Json.object members).print.flatMap writtenChar ++ ['"'] := by
  unfold written
  rw [formatPgArrayElement, written_quoted]

theorem written_number (n : JsonNumber) : written (.number n) = n.text := by
  unfold written
  rw [formatPgArrayElement, double_number]

theorem writtenItems_cons (item : Json) (items : List Json) :
    writtenItems (item :: items) = written item :: writtenItems items := by
  unfold writtenItems written
  rw [formatPgArrayElements, map_cons]

/-- An element does not start with a blank or a closing brace. -/
theorem written_head {item : Json} : ∃ c rest, written item = c :: rest ∧
    isArraySpace c = false ∧ c ≠ '\x7d' := by
  cases item with
  | null => exact ⟨'N', _, rfl, by decide, by decide⟩
  | bool b => cases b <;> exact ⟨_, _, rfl, by decide, by decide⟩
  | number n =>
    rw [written_number]
    obtain ⟨text, nonempty, chars⟩ := n
    cases text with
    | nil => exact absurd rfl nonempty
    | cons c word =>
      have bare := (isNumberChar_bare (all_eq_true.mp chars c mem_cons_self)).1
      simp only [isBareChar, Bool.and_eq_true, bne_iff_ne, ne_eq, Bool.not_eq_true'] at bare
      exact ⟨c, word, rfl, bare.2, bare.1.1.1.1.2⟩
  | string s => exact ⟨'"', _, written_string s, by decide, by decide⟩
  | object members => exact ⟨'"', _, written_object members, by decide, by decide⟩
  | array items => exact ⟨'\x7b', _, written_array, by decide, by decide⟩

mutual

/-- The calls that reading an element takes. -/
def fuelFor : Json → Nat
  | .array items => 1 + fuelForItems items
  | _ => 1

def fuelForItems : List Json → Nat
  | [] => 0
  | item :: items => 1 + fuelFor item + fuelForItems items

end

theorem fuelFor_pos (item : Json) : 0 < fuelFor item := by
  cases item <;> simp [fuelFor]

/-- An array is read back as its elements are. -/
theorem readElement_items {fuel : Nat} {rest : Str}
    (list : items ≠ [] → ReadsBack (plainItems items)
      (readElements fuel (joinWith [','] (writtenItems items) ++ '\x7d' :: rest))
      (arrayValues items) rest) :
    ReadsBack (plainItems items) (readElement (fuel + 1) (written (.array items) ++ rest))
      (.array (arrayValues items)) rest := by
  rw [written_array, cons_append, cons_append, append_assoc]
  cases items with
  | nil => exact .of_eq (readElement_empty fuel)
  | cons item items =>
    obtain ⟨good, bad⟩ := list (cons_ne_nil item items)
    obtain ⟨c, text, starts, noSpace, noClose⟩ := written_head
    have shape : joinWith [','] (writtenItems (item :: items)) ++ ['\x7d'] ++ rest =
        c :: (text ++ behind '\x7d' (writtenItems items) rest) := by
      rw [append_assoc, writtenItems_cons]
      exact joinWith_behind.trans (by rw [starts]; rfl)
    rw [append_assoc] at shape
    rw [shape, readElement_array fuel noSpace noClose]
    rw [singleton_append] at shape
    rw [shape] at good bad
    constructor
    · intro plain
      rw [good plain]
      rfl
    · intro notPlain r result meant
      obtain ⟨⟨read, left⟩, list, rfl⟩ := map_eq_some_iff.mp result
      injection meant with meant
      exact bad notPlain _ list meant

/-- A list is read back as its first element and the others are. -/
theorem readElements_step {item : Json} {fuel : Nat} {rest : Str}
    (first : ReadsBack (plainTexts item)
      (readElement fuel (written item ++ behind '\x7d' (writtenItems items) rest))
      (arrayValue item) (behind '\x7d' (writtenItems items) rest))
    (later : items ≠ [] → ReadsBack (plainItems items)
      (readElements fuel (joinWith [','] (writtenItems items) ++ '\x7d' :: rest))
      (arrayValues items) rest) :
    ReadsBack (plainItems (item :: items))
      (readElements (fuel + 1) (joinWith [','] (writtenItems (item :: items)) ++ '\x7d' :: rest))
      (arrayValues (item :: items)) rest := by
  rw [writtenItems_cons, joinWith_behind, arrayValues, plainItems]
  cases plain : plainTexts item with
  | false =>
    constructor
    · intro both
      cases both
    · intro _ r result meant
      obtain ⟨read, left, others, head, list⟩ := readElements_head result
      rw [meant, cons.injEq] at list
      exact first.bad plain _ head list.1.symm
  | true =>
    have read := first.good plain
    cases items with
    | nil => exact .of_eq (readElements_last read)
    | cons next items =>
      obtain ⟨good, bad⟩ := later (cons_ne_nil next items)
      have comma : behind '\x7d' (writtenItems (next :: items)) rest =
          ',' :: (joinWith [','] (writtenItems (next :: items)) ++ '\x7d' :: rest) := by
        rfl
      rw [comma] at read ⊢
      rw [readElements_next read]
      constructor
      · intro plain
        rw [good plain]
        rfl
      · intro notPlain r result meant
        obtain ⟨⟨others, left⟩, list, rfl⟩ := map_eq_some_iff.mp result
        rw [cons.injEq] at meant
        exact bad notPlain _ list meant.2

mutual

theorem readElement_written (item : Json) {fuel : Nat} {rest : Str} (enough : fuelFor item ≤ fuel)
    (stops : Stops rest) :
    ReadsBack (plainTexts item) (readElement fuel (written item ++ rest)) (arrayValue item) rest := by
  obtain ⟨fuel, rfl⟩ : ∃ k, fuel = k + 1 :=
    Nat.exists_eq_succ_of_ne_zero (by have := fuelFor_pos item; omega)
  match item with
  | .null =>
    have read : readElement (fuel + 1) ('N' :: "ULL".toList ++ rest) = _ :=
      readElement_word fuel (by decide) stops
    exact .of_eq read
  | .bool true =>
    have read : readElement (fuel + 1) ('t' :: "rue".toList ++ rest) = _ :=
      readElement_word fuel (by decide) stops
    exact .of_eq read
  | .bool false =>
    have read : readElement (fuel + 1) ('f' :: "alse".toList ++ rest) = _ :=
      readElement_word fuel (by decide) stops
    exact .of_eq read
  | .number n =>
    rw [written_number, arrayValue, plainTexts]
    exact .of_eq (readElement_number fuel n stops)
  | .string s =>
    rw [written_string, append_assoc, arrayValue, plainTexts]
    exact readElement_text fuel s rest
  | .object members =>
    rw [written_object, append_assoc, arrayValue, plainTexts]
    exact readElement_text fuel _ rest
  | .array items =>
    rw [fuelFor] at enough
    exact readElement_items (readElements_written items rest (by omega))

theorem readElements_written (items : List Json) {fuel : Nat} (rest : Str)
    (enough : fuelForItems items ≤ fuel) (nonempty : items ≠ []) :
    ReadsBack (plainItems items)
      (readElements fuel (joinWith [','] (writtenItems items) ++ '\x7d' :: rest))
      (arrayValues items) rest := by
  match items with
  | [] => exact absurd rfl nonempty
  | item :: items =>
    rw [fuelForItems] at enough
    obtain ⟨fuel, rfl⟩ : ∃ k, fuel = k + 1 := Nat.exists_eq_succ_of_ne_zero (by omega)
    exact readElements_step (readElement_written item (by omega) stops_behind)
      (readElements_written items rest (by omega))

end

mutual

theorem fuelFor_le (item : Json) : fuelFor item ≤ 2 * (written item).length := by
  match item with
  | .array items =>
    have list := fuelForItems_le items
    rw [fuelFor, written_array]
    simp only [length_append, length_cons, length_nil]
    omega
  | .null | .bool true | .bool false => decide
  | .number n =>
    obtain ⟨c, rest, shape, _⟩ := written_head
    rw [fuelFor, shape, length_cons]
    · omega
    · intro items same
      cases same
  | .string s =>
    rw [fuelFor, written_string, length_append, length_cons]
    · omega
    · intro items same
      cases same
  | .object members =>
    rw [fuelFor, written_object, length_append, length_cons]
    · omega
    · intro items same
      cases same

theorem fuelForItems_le (items : List Json) :
    fuelForItems items ≤ 2 * (joinWith [','] (writtenItems items)).length + 1 := by
  match items with
  | [] => simp [fuelForItems]
  | [item] =>
    have first := fuelFor_le item
    show 1 + fuelFor item + 0 ≤ 2 * (written item).length + 1
    omega
  | item :: next :: items =>
    have first := fuelFor_le item
    have later := fuelForItems_le (next :: items)
    rw [fuelForItems, writtenItems_cons, writtenItems_cons, joinWith]
    rw [writtenItems_cons] at later
    simp only [length_append, length_cons, length_nil]
    omega

end

/-- The array that PostgreSQL makes of a literal, with `standard_conforming_strings` on. -/
def readLiteral (literal : Str) : Option ArrayValue :=
  (readConstant true literal).bind fun (text, behind) => if behind = [] then readArray text else none

theorem readLiteral_array (items : List Json) :
    readLiteral (formatPgArraySqlLiteral items) = readArray (written (.array items)) := by
  unfold readLiteral
  rw [readConstant_literal]
  rfl

theorem readArray_written :
    readArray (written (.array items)) = some (arrayValue (.array items)) ↔
      plainItems items = true := by
  have enough := fuelFor_le (.array items)
  rw [fuelFor] at enough
  obtain ⟨good, bad⟩ := readElement_items
    (readElements_written items [] (show fuelForItems items ≤
      2 * (written (.array items)).length + 1 by omega))
  rw [append_nil] at good bad
  unfold readArray
  constructor
  · intro read
    by_contra notPlain
    split at read
    · next elements rest result =>
      apply bad (Bool.eq_false_of_not_eq_true notPlain) _ result
      split at read
      · injection read
      · cases read
    · cases read
  · intro plain
    rw [good plain]
    rfl

/-- An array literal of a transfer to PostgreSQL is read back exactly if no text in it, at any
depth, has a backslash or a double quote. -/
theorem array_literal_reads_back_iff (ext : Externals) (items : List Json)
    (columnType : Option Str) :
    readLiteral (escapeValueTyped ext (.array items) .postgres columnType) =
      some (arrayValue (.array items)) ↔ plainItems items = true := by
  show readLiteral (formatPgArraySqlLiteral items) = _ ↔ _
  rw [readLiteral_array]
  exact readArray_written

def noExternals : Externals := ⟨fun _ => false, fun _ _ => none, fun _ _ => none⟩

/-- The one text `a\b` comes back as `a\\b`. -/
theorem backslash_doubled :
    readLiteral (escapeValueTyped noExternals (.array [.string "a\\b".toList]) .postgres
        (some "text[]".toList)) = some (.array [.text "a\\\\b".toList]) ∧
      arrayValue (.array [.string "a\\b".toList]) = .array [.text "a\\b".toList] := by
  constructor
  · show readLiteral (formatPgArraySqlLiteral _) = _
    rw [readLiteral_array]
    rfl
  · rfl

end Dbx.Guarantees.PostgresArrays
