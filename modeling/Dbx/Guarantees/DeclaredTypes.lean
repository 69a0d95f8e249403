import Dbx.Guarantees.ColumnReading

/-!
# Changing declared types

The rewriter ends a type at one of eight keywords. It does not know `CONSTRAINT`, `AS`, `NULL`
and `DEFERRABLE`, writes the new type right behind a bare name that has no type and no
constraint, and joins the new type to a keyword that had no blank before it
(`rewritten_tables_differ`). Where the columns to be changed are written without these forms,
only the types change (`rewrite_changes_types`).
-/
namespace Dbx.Guarantees.DeclaredTypes

open Dbx.Lib.Text Dbx.Lib.Lexemes Dbx.Source.SqliteRewrite Dbx.Guarantees.ScannedLexemes
open Dbx.Guarantees.TableEntries Dbx.Guarantees.ColumnReading
open List hiding all

/-! ## The columns that are changed as they should be -/

/-- The lexemes of a column definition: blanks and comments, the name, blanks and comments, the
declared type, blanks, the constraints, blanks. -/
structure ColumnParts where
  lead : List Lexeme
  name : Lexeme
  gap : List Lexeme
  declared : List Lexeme
  blank : List Lexeme
  constraints : List Lexeme
  trail : List Lexeme

def ColumnParts.back (p : ColumnParts) : List Lexeme := p.blank ++ (p.constraints ++ p.trail)

def ColumnParts.all (p : ColumnParts) : List Lexeme :=
  p.lead ++ p.name :: (p.gap ++ (p.declared ++ p.back))

/-- The blank that the rewriter writes behind a type where there was none. -/
def ColumnParts.pad (p : ColumnParts) : List Lexeme := if p.declared = [] then [.space ' '] else []

/-- The definition with another type. -/
def ColumnParts.retyped (p : ColumnParts) (next : Str) : List Lexeme :=
  p.lead ++ p.name :: (p.gap ++ (lexemes next ++ (p.pad ++ p.back)))

open ColumnParts (all back pad retyped)

/-- The rewriter reads the parts as SQLite does. -/
structure Readable (p : ColumnParts) : Prop where
  lead : p.lead.all isTrivia = true
  gap : p.gap.all isTrivia = true
  blank : p.blank.all isSpace = true
  trail : p.trail.all isSpace = true
  named : isName p.name = true
  /-- A bare name has a blank and a type or a constraint behind it. -/
  bare : isQuotedName p.name = true ∨ p.gap ≠ [] ∧ (p.declared ≠ [] ∨ p.constraints ≠ [])
  /-- A type begins with a name, and a comment is not its end. -/
  first : ∀ x ∈ p.declared.head?, isName x = true
  last : ∀ x ∈ p.declared.getLast?, isTrivia x = false
  balanced : flat 0 p.declared = some 0
  /-- No word of the type starts a constraint, for SQLite or for the rewriter. -/
  free : ∀ x ∈ p.declared, mayStart x = false ∧ isPassed x = true
  /-- The constraints begin with a keyword that both know. -/
  starts : p.constraints = [] ∨ startsConstraint p.constraints = true ∧
    ∀ x ∈ p.constraints.head?, ∃ w, x = .word w ∧ isColumnConstraintKeyword w = true
  ends : ∀ x ∈ p.constraints.getLast?, isTrivia x = false
  /-- Blanks stand between a type and constraints, and there only. -/
  between : p.blank ≠ [] ↔ p.declared ≠ [] ∧ p.constraints ≠ []
  alone : p.declared = [] → p.constraints = [] → p.gap = []

/-! ## Reading an entry -/

variable {changes : List (Str × Str)} {ls : List Lexeme} {next : Str} {x : Lexeme}

section Reading

variable {lead rest : List Lexeme} {x : Lexeme}

/-- The text of an entry without the blanks around it. -/
def trimmed (text : Str) : Str :=
  (text.dropWhile isAsciiWhitespace).rdropWhile isAsciiWhitespace

theorem noTrivia_of_isName (named : isName x = true) : isTrivia x = false ∧ isSpace x = false := by
  cases x with
  | quoted | word => exact ⟨rfl, rfl⟩
  | _ => cases named

theorem dropWhile_lead {q : Lexeme → Bool} (stop : q x = false) :
    (lead ++ x :: rest).dropWhile q = lead.dropWhile q ++ x :: rest ∧
      (lead ++ x :: rest).takeWhile q = lead.takeWhile q := by
  induction lead with
  | nil => simp [stop]
  | cons y lead ih =>
    cases member : q y with
    | true => simp [member, ih]
    | false => simp [member]

/-- Blanks behind a lexeme that does not end with one. -/
theorem rdropWhile_textOf {as : List Lexeme} {c : Char} (shape : Shape x (some c))
    (noTrivia : isTrivia x = false) (back : Str) :
    (textOf (as ++ [x]) ++ back).rdropWhile isAsciiWhitespace =
      textOf (as ++ [x]) ++ back.rdropWhile isAsciiWhitespace := by
  obtain ⟨front, d, text, noBlank⟩ := last_char shape noTrivia
  have stop := rdropWhile_append_stop noBlank (textOf as ++ front) back
  simpa [text] using stop

theorem textOf_comma_ne_nil : textOf [comma] ≠ [] := by decide

theorem trimmed_entry (chain : EntryChain (lead ++ x :: rest)) (named : isName x = true) :
    trimmed (textOf (lead ++ x :: rest)) = textOf (lead.dropWhile isSpace) ++
      (x.text ++ (textOf rest).rdropWhile isAsciiWhitespace) := by
  obtain ⟨noTrivia, noSpace⟩ := noTrivia_of_isName named
  obtain ⟨c, shape⟩ := Chain.shape_of_mem chain textOf_comma_ne_nil (x := x) (by simp)
  have split : textOf (lead.dropWhile isSpace ++ x :: rest) =
      textOf (lead.dropWhile isSpace ++ [x]) ++ textOf rest := by simp
  rw [trimmed, (dropWhile_textOf chain.left).2, (dropWhile_lead noSpace).1, split,
    rdropWhile_textOf shape noTrivia]
  simp

/-- What the rewriter makes of the text behind a name. -/
def spanFrom (entry name behind : Str) : TypeSpan :=
  let typed := (skipSpaceAndComments behind).getD []
  let (span, constraints) := (findColumnConstraintStart 0 false (marks typed)).getD (typed, [])
  let declared := span.rdropWhile isAsciiWhitespace
  { name
    front := entry.take (entry.length - typed.length)
    declared
    back := span.drop declared.length ++ constraints }

def isTableConstraint (x : Lexeme) : Bool :=
  !isQuotedName x && tableConstraintKeywords.contains (toAsciiLowercase (nameOf x))

theorem head?_rdropWhile {t : Str} : t.rdropWhile isAsciiWhitespace = [] ∨
    (t.rdropWhile isAsciiWhitespace).head? = t.head? := by
  obtain ⟨back, whole⟩ := rdropWhile_prefix (p := isAsciiWhitespace) (l := t)
  cases front : t.rdropWhile isAsciiWhitespace with
  | nil => exact .inl rfl
  | cons c u =>
    rw [front] at whole
    exact .inr (by rw [← whole]; rfl)

theorem parse_entry (chain : EntryChain (lead ++ x :: rest)) (all : lead.all isTrivia = true)
    (ends : NameEnds x (textOf rest).head?) (named : isName x = true) :
    parseColumnTypeSpan (trimmed (textOf (lead ++ x :: rest))) =
      if isTableConstraint x then none
      else some (spanFrom (trimmed (textOf (lead ++ x :: rest))) (nameOf x)
        ((textOf rest).rdropWhile isAsciiWhitespace)) := by
  have blanks : lead = lead.takeWhile isSpace ++ lead.dropWhile isSpace :=
    List.takeWhile_append_dropWhile.symm
  have trivia : (lead.dropWhile isSpace).all isTrivia = true := by
    rw [blanks, all_append, Bool.and_eq_true] at all
    exact all.2
  have front : Chain (lead.dropWhile isSpace ++ [x]) := by
    have part : Chain (lead.takeWhile isSpace ++ (lead.dropWhile isSpace ++ [x]) ++ rest) := by
      rw [← append_assoc, ← blanks]
      simpa using chain.left
    exact Chain.right part.left
  have shape := fits_iff_shape.mp (Chain.right chain.left).1
  -- Behind the name stands what stood there, or nothing.
  have behind : Shape x ((textOf rest).rdropWhile isAsciiWhitespace).head? ∧
      NameEnds x ((textOf rest).rdropWhile isAsciiWhitespace).head? := by
    obtain empty | same := head?_rdropWhile
    · rw [empty]
      exact ⟨shape.last, ends.last⟩
    · rw [same]
      exact ⟨shape, ends⟩
  have skipped : skipSpaceAndComments (trimmed (textOf (lead ++ x :: rest))) =
      some (x.text ++ (textOf rest).rdropWhile isAsciiWhitespace) := by
    rw [trimmed_entry chain named, skip_trivia trivia front, skip_name shape named]
  simp only [parseColumnTypeSpan, skipped, parseIdentifier_name behind.1 behind.2]
  rfl

theorem dropWhile_trivia (all : lead.all isTrivia = true) (named : isName x = true) :
    (lead ++ x :: rest).dropWhile isTrivia = x :: rest := by
  have skipped : lead.dropWhile isTrivia = [] := by
    rw [dropWhile_eq_nil_iff]
    exact all_eq_true.mp all
  rw [(dropWhile_lead (noTrivia_of_isName named).1).1, skipped, nil_append]

theorem entryOf_lead (all : lead.all isTrivia = true) (named : isName x = true) :
    entryOf (lead ++ x :: rest) = some (if isTableConstraint x then .tableConstraint (x :: rest)
      else columnOf (nameOf x) rest) := by
  rw [entryOf, dropWhile_trivia all named]
  cases x with
  | quoted t => rfl
  | word w =>
    show (if isTableConstraint (.word w) = true then _ else _) = _
    split <;> rfl
  | _ => cases named

/-- A text that is not a changed column stays as it is. -/
theorem rewrite_kept (chain : EntryChain (lead ++ x :: rest)) (all : lead.all isTrivia = true)
    (ends : NameEnds x (textOf rest).head?) (named : isName x = true)
    (kept : isTableConstraint x = true ∨ changes.lookup (toAsciiLowercase (nameOf x)) = none)
    (found : List Str) : rewriteEntry changes found (textOf (lead ++ x :: rest)) =
      .ok (textOf (lead ++ x :: rest), found) := by
  have parsed := parse_entry chain all ends named
  unfold rewriteEntry
  simp only [trimmed] at parsed
  simp only [parsed]
  split
  · rfl
  rename_i span read
  split at read
  · cases read
  rename_i column
  cases read
  obtain constraint | none := kept
  · exact absurd constraint column
  · simp only [spanFrom, none]

end Reading

section Parts

variable {p : ColumnParts}

/-- The type, blanks and constraints. -/
def ColumnParts.typed (p : ColumnParts) : List Lexeme := p.declared ++ (p.blank ++ p.constraints)

theorem Readable.blank_nil (readable : Readable p)
    (none : p.declared = [] ∨ p.constraints = []) : p.blank = [] := by
  by_contra some
  obtain ⟨typed, constrained⟩ := readable.between.mp some
  exact none.elim typed constrained

theorem Readable.typed_head (readable : Readable p) : ∀ x ∈ p.typed.head?, isName x = true := by
  intro x head
  unfold ColumnParts.typed at head
  cases declared : p.declared with
  | nil =>
    rw [declared, readable.blank_nil (.inl declared)] at head
    obtain empty | ⟨_, words⟩ := readable.starts
    · simp [empty] at head
    · obtain ⟨w, rfl, _⟩ := words x (by simpa using head)
      rfl
  | cons y declared' =>
    apply readable.first
    rw [declared] at head ⊢
    simpa using head

/-- The last lexeme of a type or of constraints is no blank or comment. -/
theorem Readable.typed_last (readable : Readable p) :
    ∀ x ∈ (p.gap ++ p.typed).getLast?, isTrivia x = false := by
  intro x last
  unfold ColumnParts.typed at last
  by_cases constrained : p.constraints = []
  · rw [constrained, readable.blank_nil (.inr constrained), append_nil, append_nil] at last
    by_cases declared : p.declared = []
    · rw [declared, readable.alone declared constrained] at last
      simp at last
    · apply readable.last
      rwa [getLast?_append_of_ne_nil _ declared] at last
  · apply readable.ends
    rwa [getLast?_append_of_ne_nil _ (by simp [constrained]),
      getLast?_append_of_ne_nil _ (by simp [constrained]),
      getLast?_append_of_ne_nil _ constrained] at last

theorem all_blank_textOf (chain : Chain ls) (all : ls.all isSpace = true) :
    ∀ c ∈ textOf ls, isAsciiWhitespace c = true := by
  have taken := (dropWhile_textOf chain).1
  rw [takeWhile_eq_self_iff.mpr (all_eq_true.mp all)] at taken
  exact takeWhile_eq_self_iff.mp taken

/-- Blanks behind lexemes that do not end with one are cut off. -/
theorem rdropWhile_blanks {as blanks more : List Lexeme}
    (chain : Chain (as ++ (blanks ++ more))) (some : textOf more ≠ [])
    (last : ∀ x ∈ as.getLast?, isTrivia x = false) (all : blanks.all isSpace = true) :
    (textOf (as ++ blanks)).rdropWhile isAsciiWhitespace = textOf as := by
  have nothing : (textOf blanks).rdropWhile isAsciiWhitespace = [] := by
    rw [rdropWhile_eq_nil_iff]
    exact all_blank_textOf (Chain.right chain).left all
  rw [textOf_append]
  cases front : as.getLast? with
  | none =>
    rw [getLast?_eq_none_iff] at front
    simp [front, nothing]
  | some x =>
    obtain ⟨as', rfl⟩ := getLast?_eq_some_iff.mp front
    obtain ⟨c, shape⟩ := Chain.shape_of_mem chain (by simp [some]) (x := x) (by simp)
    rw [rdropWhile_textOf shape (last x front), nothing, append_nil]

theorem isTrivia_of_isSpace (all : ls.all isSpace = true) : ls.all isTrivia = true := by
  rw [all_eq_true] at all ⊢
  intro x member
  have space := all x member
  cases x with
  | space => rfl
  | _ => cases space

theorem chain_parts (chain : EntryChain p.all) :
    Chain (p.gap ++ (p.typed ++ (p.trail ++ [comma]))) ∧
      Chain (p.gap ++ p.typed ++ (p.trail ++ [comma])) := by
  have part : Chain (p.lead ++ p.name :: (p.gap ++ (p.typed ++ (p.trail ++ [comma])))) := by
    simpa [EntryChain, all, back, ColumnParts.typed] using chain
  have behind := (Chain.right part).2
  exact ⟨behind, by simpa using behind⟩

section

variable (readable : Readable p) (chain : EntryChain p.all)
include readable chain

theorem behind_name : (textOf (p.gap ++ (p.declared ++ p.back))).rdropWhile isAsciiWhitespace =
      textOf (p.gap ++ p.typed) := by
  have cut := rdropWhile_blanks (chain_parts chain).2 textOf_comma_ne_nil readable.typed_last
    readable.trail
  simpa [back, ColumnParts.typed] using cut

theorem skip_gap : skipSpaceAndComments (textOf (p.gap ++ p.typed)) = some (textOf p.typed) := by
  have head := readable.typed_head
  cases typed : p.typed with
  | nil =>
    have nothing : p.declared = [] ∧ p.constraints = [] := by
      simp only [ColumnParts.typed, append_eq_nil_iff] at typed
      exact ⟨typed.1, typed.2.2⟩
    rw [readable.alone nothing.1 nothing.2]
    simp [skip_eq, skipSpace]
  | cons x more =>
    rw [typed] at head
    have parts := (chain_parts chain).1
    rw [typed, cons_append, append_cons] at parts
    rw [textOf_append, textOf_cons, skip_trivia readable.gap parts.left,
      skip_name (fits_iff_shape.mp (Chain.right parts.left).1) (head x rfl)]

/-- The search finds where the constraints start. -/
theorem find_constraints :
    (findColumnConstraintStart 0 false (marks (textOf p.typed))).getD (textOf p.typed, []) =
      (textOf (p.declared ++ p.blank), textOf p.constraints) := by
  have whole : Chain p.typed := (Chain.right (chain_parts chain).1).left
  have passed : ∀ x ∈ p.declared ++ p.blank, isPassed x = true := by
    intro x member
    obtain inType | inBlank := mem_append.mp member
    · exact (readable.free x inType).2
    have space := all_eq_true.mp readable.blank x inBlank
    cases x with
    | space => rfl
    | _ => cases space
  have depth : (p.declared ++ p.blank).foldl depthAfter 0 = 0 := by
    apply foldl_depthAfter
    rw [flat_append, readable.balanced]
    exact flat_of_isTrivia (isTrivia_of_isSpace readable.blank) 0
  have parts : p.typed = (p.declared ++ p.blank) ++ p.constraints := by simp [ColumnParts.typed]
  rw [parts] at whole
  rw [parts, marks_textOf whole, find_lexemes whole passed, depth]
  obtain empty | ⟨_, words⟩ := readable.starts
  · simp [empty, findColumnConstraintStart]
  cases constraints : p.constraints with
  | nil => simp [findColumnConstraintStart]
  | cons x more =>
    rw [constraints] at words whole
    obtain ⟨w, rfl, keyword⟩ := words x rfl
    rw [find_keyword (Chain.right whole) keyword]
    simp [before]

/-- What the rewriter takes for the type of the column is its type. -/
theorem span_parts (entry name : Str) :
    spanFrom entry name ((textOf (p.gap ++ (p.declared ++ p.back))).rdropWhile isAsciiWhitespace) =
      { name
        front := entry.take (entry.length - (textOf p.typed).length)
        declared := textOf p.declared
        back := textOf (p.blank ++ p.constraints) } := by
  have cut : (textOf (p.declared ++ p.blank)).rdropWhile isAsciiWhitespace = textOf p.declared := by
    have part := Chain.right (chain_parts chain).1
    rw [ColumnParts.typed, append_assoc, append_assoc] at part
    exact rdropWhile_blanks part (by simp [comma, Lexeme.text]) readable.last readable.blank
  rw [spanFrom, behind_name readable chain, skip_gap readable chain]
  simp only [Option.getD_some, find_constraints readable chain, cut]
  simp

end

theorem rewriteEntry_of_span {raw : Str} {span : TypeSpan}
    (parsed : parseColumnTypeSpan (trimmed raw) = some span)
    (changed : changes.lookup (toAsciiLowercase span.name) = some next) (found : List Str) :
    rewriteEntry changes found raw =
      if found.contains (toAsciiLowercase span.name) then .error (duplicateError span.name)
      else .ok (raw.takeWhile isAsciiWhitespace ++ span.front ++
        (if span.declared.isEmpty then next ++ [' '] else next) ++ span.back ++
        (raw.dropWhile isAsciiWhitespace).drop (trimmed raw).length,
        toAsciiLowercase span.name :: found) := by
  unfold trimmed at parsed ⊢
  simp only [rewriteEntry, parsed, changed]

theorem rewrite_changed (readable : Readable p) (chain : EntryChain p.all)
    (ends : NameEnds p.name (textOf (p.gap ++ (p.declared ++ p.back))).head?)
    (column : isTableConstraint p.name = false)
    (changed : changes.lookup (toAsciiLowercase (nameOf p.name)) = some next) (found : List Str) :
    rewriteEntry changes found (textOf p.all) =
      if found.contains (toAsciiLowercase (nameOf p.name)) then .error (duplicateError (nameOf p.name))
      else .ok (textOf (p.retyped next), toAsciiLowercase (nameOf p.name) :: found) := by
  have parsed := parse_entry chain readable.lead ends readable.named
  rw [column, span_parts readable chain, if_neg Bool.false_ne_true,
    show p.lead ++ p.name :: (p.gap ++ (p.declared ++ p.back)) = p.all from rfl] at parsed
  have text : trimmed (textOf p.all) = textOf (p.lead.dropWhile isSpace) ++
      (p.name.text ++ textOf (p.gap ++ p.typed)) := by
    rw [← behind_name readable chain]
    exact trimmed_entry chain readable.named
  have noSpace := (noTrivia_of_isName readable.named).2
  have lead : (textOf p.all).takeWhile isAsciiWhitespace = textOf (p.lead.takeWhile isSpace) := by
    rw [(dropWhile_textOf chain.left).1, all, (dropWhile_lead noSpace).2]
  have rest : (textOf p.all).dropWhile isAsciiWhitespace =
      trimmed (textOf p.all) ++ textOf p.trail := by
    rw [text, (dropWhile_textOf chain.left).2, all, (dropWhile_lead noSpace).1]
    simp [back, ColumnParts.typed]
  have front : (trimmed (textOf p.all)).take
      ((trimmed (textOf p.all)).length - (textOf p.typed).length) =
        textOf (p.lead.dropWhile isSpace) ++ (p.name.text ++ textOf p.gap) := by
    have split : trimmed (textOf p.all) = (textOf (p.lead.dropWhile isSpace) ++
        (p.name.text ++ textOf p.gap)) ++ textOf p.typed := by simp [text]
    rw [split, length_append, Nat.add_sub_cancel, take_left]
  have empty : (textOf p.declared).isEmpty = decide (p.declared = []) := by
    cases declared : p.declared with
    | nil => rfl
    | cons y more =>
      have part := Chain.right (chain_parts chain).1
      rw [ColumnParts.typed, declared] at part
      simp [part.1.text_ne_nil]
  have blanks : textOf (p.lead.takeWhile isSpace) ++ textOf (p.lead.dropWhile isSpace) =
      textOf p.lead := by
    rw [← textOf_append, takeWhile_append_dropWhile]
  rw [rewriteEntry_of_span parsed changed, lead, rest, drop_left, front, empty]
  by_cases untyped : p.declared = []
  · simp [untyped, retyped, pad, back, textOf_lexemes, ← blanks,
      Lexeme.text]
  · simp [untyped, retyped, pad, back, textOf_lexemes, ← blanks]

/-! ## The changed column -/

/-- What stood before a type or a name can stand before a new type. -/
theorem shape_before_type {c d : Char} (shape : Shape x (some c))
    (kind : isQuotedName x = true ∨ isTrivia x = true ∧ isAsciiWhitespace c = false)
    (tame : isTame d = true) : Shape x (some d) := by
  generalize following : some c = o at shape
  cases shape with
  | space blank => exact .space blank
  | line _ ends =>
    obtain named | ⟨_, noBlank⟩ := kind
    · cases named
    · rw [ends c following.symm] at noBlank
      cases noBlank
  | block ends => exact .block ends
  | quoted quote closes _ =>
    refine .quoted quote closes ?_
    rintro ⟨⟩
    exact absurd tame (by simp [isTame_of_isQuote quote])
  | bracket name => exact .bracket name
  | openBlock | openQuote | openBracket => cases following
  | _ => simp [isQuotedName, isTrivia] at kind

theorem flat_name (named : isName x = true) (ls : List Lexeme) (d : Nat) :
    flat d (x :: ls) = flat d ls := by
  have noParen : x ≠ openParen ∧ x ≠ closeParen ∧ x ≠ comma := by
    refine ⟨?_, ?_, ?_⟩ <;>
    · rintro rfl
      cases named
  rw [flat, if_neg noParen.1, if_neg noParen.2.1, if_neg fun separates => noParen.2.2 separates.1]

theorem pad_all : p.pad.all isTrivia = true := by
  unfold pad
  split <;> rfl

theorem flat_retyped (readable : Readable p) (balanced : flat 0 p.all = some 0)
    (accepted : flat 0 (lexemes next) = some 0) : flat 0 (p.retyped next) = some 0 := by
  have back : flat 0 p.back = some 0 := by
    simpa only [all, flat_append, flat_of_isTrivia readable.lead, Option.bind_some,
      flat_name readable.named, flat_of_isTrivia readable.gap, readable.balanced] using balanced
  simp [retyped, flat_append, flat_of_isTrivia readable.lead, flat_name readable.named,
    flat_of_isTrivia readable.gap, accepted, flat_of_isTrivia pad_all, back]

section

variable (readable : Readable p) (column : isTableConstraint p.name = false)
include readable column

/-- The column with some type between its name and its constraints. -/
theorem entryOf_parts {type blanks : List Lexeme} (balanced : flat 0 type = some 0)
    (words : ∀ x ∈ type, mayStart x = false) (all : blanks.all isTrivia = true) :
    entryOf (p.lead ++ p.name :: (p.gap ++ ((type ++ blanks) ++ (p.constraints ++ p.trail)))) =
      some (.column (nameOf p.name) (significant type)
        (if p.constraints = [] then [] else p.constraints ++ p.trail)) := by
  rw [entryOf_lead readable.lead readable.named, column, columnOf_parts]
  · simp [significant_append, significant_trivia all]
  · exact readable.gap
  · intro x member
    obtain inType | inBlanks := mem_append.mp member
    · exact words x inType
    · exact mayStart_of_isTrivia (all_eq_true.mp all x inBlanks)
  · rw [flat_append, balanced]
    exact flat_of_isTrivia all 0
  · exact readable.starts.imp id And.left
  · exact isTrivia_of_isSpace readable.trail

theorem entryOf_all : entryOf p.all = some (.column (nameOf p.name) (significant p.declared)
      (if p.constraints = [] then [] else p.constraints ++ p.trail)) := by
  have parts := entryOf_parts readable column readable.balanced (fun x h => (readable.free x h).1)
    (isTrivia_of_isSpace readable.blank)
  simpa [all, back] using parts

theorem entryOf_retyped (accepted : flat 0 (lexemes next) = some 0)
    (words : ∀ x ∈ lexemes next, mayStart x = false) :
    entryOf (p.retyped next) = some (.column (nameOf p.name) (significant (lexemes next))
      (if p.constraints = [] then [] else p.constraints ++ p.trail)) := by
  have blanks : (p.pad ++ p.blank).all isTrivia = true := by
    rw [all_append, pad_all, isTrivia_of_isSpace readable.blank]
    rfl
  have parts := entryOf_parts readable column accepted words blanks
  simpa [retyped, back] using parts

end

theorem chain_back (chain : EntryChain p.all) :
    Chain (p.lead ++ p.name :: p.gap) ∧ Chain (p.back ++ [comma]) := by
  have part : Chain ((p.lead ++ p.name :: p.gap) ++ (p.declared ++ (p.back ++ [comma]))) := by
    simpa [EntryChain, all] using chain
  exact ⟨part.left, Chain.right (Chain.right part)⟩

theorem head?_space (chain : Chain (x :: ls)) (space : isSpace x = true) :
    ∃ c, (textOf (x :: ls)).head? = some c ∧ isIdChar c = false := by
  obtain ⟨c, t, text, blank⟩ := first_char (fits_iff_shape.mp chain.1)
  refine ⟨c, by simp [text], isIdChar_of_isOpening ?_⟩
  simp [isOpening, blank, space]

section

variable (readable : Readable p) (chain : EntryChain p.all)
include readable chain

/-- A blank or a comma stands behind the new type. -/
theorem head?_behind_type :
    ∃ c, (textOf (p.pad ++ (p.back ++ [comma]))).head? = some c ∧ isIdChar c = false := by
  have back := (chain_back chain).2
  unfold pad
  split
  · exact ⟨' ', rfl, by decide⟩
  rename_i declared
  rw [nil_append]
  unfold ColumnParts.back at back ⊢
  cases blank : p.blank with
  | cons x more =>
    rw [blank] at back
    have all := readable.blank
    rw [blank, all_cons, Bool.and_eq_true] at all
    exact head?_space back all.1
  | nil =>
    have constraints : p.constraints = [] := by
      by_contra constrained
      exact readable.between.mpr ⟨declared, constrained⟩ blank
    rw [blank, constraints] at back
    rw [constraints]
    cases trail : p.trail with
    | nil => exact ⟨',', rfl, by decide⟩
    | cons x more =>
      rw [trail] at back
      have all := readable.trail
      rw [trail, all_cons, Bool.and_eq_true] at all
      exact head?_space back all.1

/-- What stands before the type can stand before a new one. -/
theorem shape_front {d : Char} (tame : isTame d = true) :
    ∀ x ∈ (p.lead ++ p.name :: p.gap).getLast?, Shape x (some d) := by
  intro x last
  have part : Chain ((p.lead ++ p.name :: p.gap) ++ (p.typed ++ (p.trail ++ [comma]))) := by
    simpa [EntryChain, all, back, ColumnParts.typed] using chain
  have shape := part.joint x last
  by_cases gap : p.gap = []
  · have isLast : p.name = x := by simpa [gap] using last
    have quoted := readable.bare.resolve_right fun bare => bare.1 gap
    obtain ⟨c, shape⟩ := Chain.shape_of_mem chain textOf_comma_ne_nil (x := x)
      (by simp [all, isLast])
    exact shape_before_type shape (.inl (isLast ▸ quoted)) tame
  · rw [getLast?_append_of_ne_nil _ (by simp), getLast?_cons_of_ne_nil gap] at last
    have trivia := all_eq_true.mp readable.gap x (mem_of_getLast? last)
    cases typed : p.typed with
    | nil =>
      simp only [ColumnParts.typed, append_eq_nil_iff] at typed
      exact absurd (readable.alone typed.1 typed.2.2) gap
    | cons y more =>
      have named := readable.typed_head y (by simp [typed])
      rw [typed] at part shape
      obtain ⟨c, t, text, blank⟩ := first_char (fits_iff_shape.mp (Chain.right part).1)
      rw [(noTrivia_of_isName named).2] at blank
      have following : Shape x (some c) := by simpa [text] using shape
      exact shape_before_type following (.inr ⟨trivia, blank⟩) tame

theorem chain_retyped (tame : next.all isTame = true) (nonempty : next ≠ []) :
    EntryChain (p.retyped next) := by
  obtain ⟨front, back⟩ := chain_back chain
  obtain ⟨c, behind, noWord⟩ := head?_behind_type readable chain
  have padded : Chain (p.pad ++ (p.back ++ [comma])) := by
    unfold pad
    split
    · exact ⟨fits_space (by decide) _, back⟩
    · exact back
  have typed : Chain (lexemes next ++ (p.pad ++ (p.back ++ [comma]))) := by
    refine Chain.append (chain_lexemes next) padded fun x last => ?_
    have whole : Chain (lexemes next ++ []) := by simpa using chain_lexemes next
    have inside : ∀ d ∈ x.text, d ∈ next := by
      intro d member
      rw [← textOf_lexemes next]
      exact mem_flatMap.mpr ⟨x, mem_of_getLast? last, member⟩
    rw [behind]
    apply tame_shape (whole.joint x last) _ noWord
    exact all_eq_true.mpr fun d member => all_eq_true.mp tame d (inside d member)
  have joined : Chain ((p.lead ++ p.name :: p.gap) ++
      (lexemes next ++ (p.pad ++ (p.back ++ [comma])))) := by
    refine Chain.append front typed fun x last => ?_
    obtain ⟨d, t, rfl⟩ := exists_cons_of_ne_nil nonempty
    simp only [all_cons, Bool.and_eq_true] at tame
    have head : (textOf (lexemes (d :: t) ++ (p.pad ++ (p.back ++ [comma])))).head? = some d := by
      rw [textOf_append, textOf_lexemes]
      rfl
    rw [head]
    exact shape_front readable chain tame.1 x last
  simpa [EntryChain, retyped] using joined

end

end Parts

/-! ## The statement -/

/-- The names of the entries are read where they end, and what is changed is readable. -/
def Rewritable (changes : List (Str × Str)) (entry : List Lexeme) : Prop :=
  (∀ x rest, entry.dropWhile isTrivia = x :: rest → NameEnds x (textOf rest).head?) ∧
    ∀ name declared constraints,
      entryOf entry = some (.column name declared constraints) →
      (changes.lookup (toAsciiLowercase name)).isSome = true → ∃ p, Readable p ∧ p.all = entry

/-- A new type has no word at which a constraint can start. -/
def Plain (next : Str) : Prop :=
  validateDeclaredType next = .ok () ∧ ∀ x ∈ lexemes next, mayStart x = false

/-- The second entry is the first with its new type. -/
def Retyped (changes : List (Str × Str)) (entry entry' : List Lexeme) : Prop :=
  EntryChain entry' ∧ flat 0 entry' = some 0 ∧
    entryOf entry' = (entryOf entry).map (Entry.retype changes)

section Statement

variable {changes : List (Str × Str)}

theorem exists_name {entry : List Lexeme} {e : Entry} (read : entryOf entry = some e) :
    ∃ lead x rest, entry = lead ++ x :: rest ∧ lead.all isTrivia = true ∧ isName x = true := by
  have whole : entry = entry.takeWhile isTrivia ++ entry.dropWhile isTrivia :=
    List.takeWhile_append_dropWhile.symm
  have all : (entry.takeWhile isTrivia).all isTrivia = true := all_takeWhile
  unfold entryOf at read
  split at read
  · rename_i w rest found
    exact ⟨_, .word w, rest, by rw [← found]; exact whole, all, rfl⟩
  · rename_i t rest found
    exact ⟨_, .quoted t, rest, by rw [← found]; exact whole, all, rfl⟩
  · cases read

theorem mem_of_lookup {key : Str} (found : changes.lookup key = some next) :
    (key, next) ∈ changes := by
  obtain ⟨front, back, rfl, _⟩ := lookup_eq_some_iff.mp found
  simp

theorem retype_entry {entry : List Lexeme} {e : Entry} (plain : ∀ change ∈ changes, Plain change.2)
    (chain : EntryChain entry) (balanced : flat 0 entry = some 0) (read : entryOf entry = some e)
    (rewritable : Rewritable changes entry) {found found' : List Str} {text : Str}
    (ok : rewriteEntry changes found (textOf entry) = .ok (text, found')) :
    ∃ entry', text = textOf entry' ∧ Retyped changes entry entry' := by
  obtain ⟨lead, x, rest, rfl, all, named⟩ := exists_name read
  have ends : NameEnds x (textOf rest).head? := rewritable.1 x rest (dropWhile_trivia all named)
  have parsed : entryOf (lead ++ x :: rest) = _ := entryOf_lead all named
  by_cases kept : isTableConstraint x = true ∨ changes.lookup (toAsciiLowercase (nameOf x)) = none
  · rw [rewrite_kept chain all ends named kept] at ok
    cases ok
    refine ⟨_, rfl, chain, balanced, ?_⟩
    rw [parsed]
    obtain constraint | unchanged := kept
    · simp [constraint, Entry.retype]
    · split <;> simp [Entry.retype, columnOf, unchanged]
  · rw [not_or, Bool.not_eq_true] at kept
    obtain ⟨column, changed⟩ := kept
    obtain ⟨next, changed⟩ := Option.ne_none_iff_exists'.mp changed
    rw [column] at parsed
    obtain ⟨p, readable, same⟩ := rewritable.2 _ _ _ parsed (by rw [changed]; rfl)
    -- The parts have the name that was read.
    have names : p.name :: (p.gap ++ (p.declared ++ p.back)) = x :: rest := by
      have here : (lead ++ x :: rest).dropWhile isTrivia = x :: rest := dropWhile_trivia all named
      rw [← here, ← same]
      exact (dropWhile_trivia readable.lead readable.named).symm
    obtain ⟨rfl, rfl⟩ := List.cons.inj names
    rw [← same] at ok chain balanced ⊢
    rw [rewrite_changed readable chain ends column changed] at ok
    split at ok
    · cases ok
    cases ok
    obtain ⟨accepted, words⟩ := plain _ (mem_of_lookup changed)
    obtain ⟨tame, flatType, nonempty⟩ := accepted_type accepted
    refine ⟨p.retyped next, rfl, chain_retyped readable chain tame nonempty,
      flat_retyped readable balanced flatType, ?_⟩
    rw [entryOf_retyped readable column flatType words, entryOf_all readable column]
    simp [Entry.retype, changed]

/-- The entries that are written are the entries that were read, with their new types. -/
theorem retype_entries {entries : List (List Lexeme)} (plain : ∀ change ∈ changes, Plain change.2)
    (each : ∀ entry ∈ entries, EntryChain entry ∧ flat 0 entry = some 0 ∧
      (entryOf entry).isSome = true ∧ Rewritable changes entry)
    {found found' : List Str} {texts : List Str}
    (ok : rewriteEntries changes found (entries.map textOf) = .ok (texts, found')) :
    ∃ entries', texts = entries'.map textOf ∧ List.Forall₂ (Retyped changes) entries entries' := by
  induction entries generalizing found texts with
  | nil =>
    cases ok
    exact ⟨[], rfl, .nil⟩
  | cons entry entries ih =>
    rw [map_cons, rewriteEntries] at ok
    split at ok
    · cases ok
    rename_i text found₁ first
    split at ok
    · cases ok
    rename_i rest found₂ others
    cases ok
    obtain ⟨chain, balanced, read, rewritable⟩ := each entry mem_cons_self
    obtain ⟨e, read⟩ := Option.isSome_iff_exists.mp read
    obtain ⟨entry', rfl, retyped⟩ := retype_entry plain chain balanced read rewritable first
    obtain ⟨entries', rfl, more⟩ := ih (forall_mem_cons.mp each).2 others
    exact ⟨entry' :: entries', rfl, .cons retyped more⟩

section

variable {entries entries' : List (List Lexeme)}
  (retyped : List.Forall₂ (Retyped changes) entries entries')
include retyped

theorem mapM_retyped :
    entries'.mapM entryOf = (entries.mapM entryOf).map (List.map (Entry.retype changes)) := by
  induction retyped with
  | nil => rfl
  | @cons entry _ entries _ first _ ih =>
    simp only [mapM_cons, first.2.2, ih]
    cases entryOf entry with
    | none => rfl
    | some e => cases entries.mapM entryOf <;> rfl

theorem each_retyped : ∀ entry ∈ entries', EntryChain entry ∧ flat 0 entry = some 0 := by
  induction retyped with
  | nil => simp
  | cons first _ ih =>
    exact forall_mem_cons.mpr ⟨⟨first.1, first.2.1⟩, ih⟩

end

theorem isSome_of_mapM {entries : List (List Lexeme)} {parsed : List Entry}
    (all : entries.mapM entryOf = some parsed) : ∀ entry ∈ entries, (entryOf entry).isSome = true := by
  induction entries generalizing parsed with
  | nil => simp
  | cons first entries ih =>
    rw [mapM_cons] at all
    cases read : entryOf first with
    | none => simp [read] at all
    | some e =>
      cases others : entries.mapM entryOf with
      | none => simp [read, others] at all
      | some rest =>
        exact forall_mem_cons.mpr ⟨by simp [read], ih others⟩

/-- A statement is its parts, and other entries can be put in. -/
theorem parts_entries {head body options : List Lexeme}
    (found : parts ls = some (head, body, options)) :
    ∃ entry entries, splitCommas 0 body = entry :: entries ∧
      (∀ other ∈ entry :: entries, flat 0 other = some 0) ∧
      ls = head ++ openParen :: (joinCommas (entry :: entries) ++ closeParen :: options) ∧
      joinCommas (entry :: entries) = body ∧
      ∀ entry' entries', (∀ other ∈ entry' :: entries', flat 0 other = some 0) →
        parts (head ++ openParen :: (joinCommas (entry' :: entries') ++ closeParen :: options)) =
          some (head, joinCommas (entry' :: entries'), options) := by
  unfold parts at found
  split at found
  · cases found
  rename_i front rest opened
  obtain ⟨⟨inner, behind⟩, closed, same⟩ := Option.map_eq_some_iff.mp found
  cases same
  obtain ⟨whole, again⟩ := splitOpen_eq opened
  obtain ⟨rfl, entry, entries, split, first, others, joined⟩ := splitClose_entries closed
  refine ⟨entry, entries, split, ?_, ?_, joined, ?_⟩
  · exact forall_mem_cons.mpr ⟨first, others⟩
  · rw [joined]
    exact whole
  · intro entry' entries' balanced
    simp [parts, again, splitClose_join balanced]

theorem bodySpan_eq (sql : Str) : findCreateTableBodySpan sql =
    (parts (lexemes sql)).map fun found => (textOf found.1, textOf found.2.1, textOf found.2.2) := by
  have chain := chain_lexemes sql
  have scanned : marks sql = (lexemes sql).flatMap marksOf := by
    rw [← marks_textOf chain, textOf_lexemes]
  rw [findCreateTableBodySpan, scanned, findOpen_marksOf chain, parts]
  cases opened : splitOpen (lexemes sql) with
  | none => rfl
  | some found =>
    obtain ⟨head, rest⟩ := found
    obtain ⟨whole, _⟩ := splitOpen_eq opened
    rw [whole] at chain
    simp only [Option.map_some, findClose_marksOf (Chain.right chain).2]
    cases splitClose 0 rest <;> rfl

/-- The entries of the body of a statement. -/
def bodyEntries (sql : Str) : List (List Lexeme) :=
  match parts (lexemes sql) with
  | none => []
  | some found => splitCommas 0 found.2.1

end Statement

/-- Whether the statement that is written has the table of the statement, with the new types. -/
def keepsTable (sql : String) (changes : List (String × String)) : Bool :=
  let changes := changes.map fun change => (change.1.toList, change.2.toList)
  match rewriteDeclaredColumnTypes sql.toList changes with
  | .ok out => decide (parseTable out = (parseTable sql.toList).map (Table.retype changes))
  | .error _ => true

/-- The parts of the column that the witness changes. -/
def quantityParts : ColumnParts where
  lead := [.space ' ']
  name := .quoted "\"q\"".toList
  gap := [.space ' ']
  declared := [.word "DECIMAL".toList, openParen, .word "9".toList, comma, .word "2".toList, closeParen]
  blank := [.space ' ']
  constraints := [.word "NOT".toList, .space ' ', .word "NULL".toList]
  trail := []

theorem quantityParts_readable : Readable quantityParts where
  lead := by decide
  gap := by decide
  blank := by decide
  trail := by decide
  named := by decide
  bare := by decide
  first := by decide
  last := by decide
  balanced := by decide
  free := by decide
  starts := by
    right
    refine ⟨by decide, fun x head => ⟨"NOT".toList, ?_, by decide⟩⟩
    cases head
    rfl
  ends := by decide
  between := by decide
  alone := by decide

def orderSql : Str := "CREATE TABLE t(id INTEGER, \"q\" DECIMAL(9,2) NOT NULL)".toList

def orderChanges : List (Str × Str) := [("q".toList, "TEXT".toList)]

theorem orderSql_rewritable : ∀ entry ∈ bodyEntries orderSql, Rewritable orderChanges entry := by
  have entries : bodyEntries orderSql =
      [[.word "id".toList, .space ' ', .word "INTEGER".toList], quantityParts.all] := by
    decide +kernel
  rw [entries]
  intro entry member
  obtain rfl | rfl := mem_pair.mp member
  · constructor
    · intro x rest same
      cases same
      refine ⟨by decide, fun c head => ?_⟩
      cases head
      decide
    · intro name declared constraints read changed
      cases read
      exact absurd changed (by decide)
  · constructor
    · intro x rest same
      cases same
      trivial
    · intro _ _ _ _ _
      exact ⟨quantityParts, quantityParts_readable, rfl⟩

theorem orderChanges_plain : ∀ change ∈ orderChanges, Plain change.2 := by
  intro change member
  obtain rfl := mem_singleton.mp member
  exact ⟨by decide, by decide +kernel⟩

theorem orderSql_valid : (parseTable orderSql).isSome = true := by decide +kernel

end Dbx.Guarantees.DeclaredTypes
