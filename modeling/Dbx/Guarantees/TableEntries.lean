import Dbx.Guarantees.ScannedLexemes

/-!
# The entries of a table as SQLite reads them

SQLite reads the entries of a `CREATE TABLE` statement as columns and table constraints. A
column has a name, a declared type up to the first word that starts a constraint, and its
constraints (`parseTable`). Changing types is to change the declared types of the named
columns and nothing else (`Table.retype`).

A statement comes apart at its commas and parentheses and can be put together again from
other entries (`parts_join`, `splitCommas_join`, `chain_join`).
-/
namespace Dbx.Guarantees.TableEntries

open Dbx.Lib.Text Dbx.Lib.Lexemes Dbx.Source.SqliteRewrite Dbx.Guarantees.ScannedLexemes List Option
open Function
open Bool

/-! ## What SQLite reads -/

def wordIs (names : List String) : Lexeme → Bool
  | .word w => (names.map String.toList).contains (toAsciiLowercase w)
  | _ => false

/-- The words that start a constraint of a column; `GENERATED` does before `ALWAYS`. -/
def constraintWords : List String :=
  ["constraint", "not", "null", "primary", "unique", "check", "default", "collate", "references",
    "deferrable", "as"]

def startsConstraint : List Lexeme → Bool
  | [] => false
  | x :: ls => wordIs constraintWords x ||
      (wordIs ["generated"] x && (ls.dropWhile isTrivia).head?.any (wordIs ["always"]))

def depthAfter (depth : Nat) (x : Lexeme) : Nat :=
  if x = openParen then depth + 1 else if x = closeParen then depth - 1 else depth

/-- What stands before the first constraint outside of parentheses, and the rest. -/
def splitType (depth : Nat) : List Lexeme → List Lexeme × List Lexeme
  | [] => ([], [])
  | x :: ls =>
    if depth = 0 ∧ startsConstraint (x :: ls) = true then ([], x :: ls)
    else
      let found := splitType (depthAfter depth x) ls
      (x :: found.1, found.2)

def significant (ls : List Lexeme) : List Lexeme := ls.filter fun x => !isTrivia x

/-- Two quotes stand for one. -/
def undouble (q : Char) : Str → Str
  | [] => []
  | [c] => [c]
  | c :: d :: t => if c = q ∧ d = q then q :: undouble q t else c :: undouble q (d :: t)

/-- What a quoted name stands for. -/
def unquote : Str → Str
  | [] => []
  | q :: t => if q = '[' then t.dropLast else undouble q t.dropLast

inductive Entry where
  | column (name : Str) (declared constraints : List Lexeme)
  | tableConstraint (text : List Lexeme)
  deriving DecidableEq

def columnOf (name : Str) (ls : List Lexeme) : Entry :=
  .column name (significant (splitType 0 ls).1) (splitType 0 ls).2

def entryOf (ls : List Lexeme) : Option Entry :=
  match ls.dropWhile isTrivia with
  | .word w :: rest =>
    if wordIs ["constraint", "primary", "unique", "check", "foreign"] (.word w) then
      some (.tableConstraint (.word w :: rest))
    else some (columnOf w rest)
  | .quoted t :: rest => some (columnOf (unquote t) rest)
  | _ => none

structure Table where
  head : List Lexeme
  entries : List Entry
  options : List Lexeme
  deriving DecidableEq

/-- The three parts of a statement: before, in and behind the parentheses. -/
def parts (ls : List Lexeme) : Option (List Lexeme × List Lexeme × List Lexeme) :=
  match splitOpen ls with
  | none => none
  | some (head, rest) => (splitClose 0 rest).map fun found => (head, found.1, found.2)

def parseTable (sql : Str) : Option Table :=
  match parts (lexemes sql) with
  | none => none
  | some (head, body, options) =>
    ((splitCommas 0 body).mapM entryOf).map fun entries => ⟨head, entries, options⟩

/-- The column has the declared type that the changes name for it. -/
def Entry.retype (changes : List (Str × Str)) : Entry → Entry
  | .column name declared constraints =>
    match changes.lookup (toAsciiLowercase name) with
    | some type => .column name (significant (lexemes type)) constraints
    | none => .column name declared constraints
  | .tableConstraint text => .tableConstraint text

def Table.retype (changes : List (Str × Str)) (table : Table) : Table :=
  { table with entries := table.entries.map (Entry.retype changes) }

/-! ## Entries and their commas -/

/-- The depth behind the lexemes; a parenthesis that closes nothing and a comma outside of
parentheses have none. -/
def flat (depth : Nat) : List Lexeme → Option Nat
  | [] => some depth
  | x :: ls =>
    if x = openParen then flat (depth + 1) ls
    else if x = closeParen then if depth = 0 then none else flat (depth - 1) ls
    else if x = comma ∧ depth = 0 then none
    else flat depth ls

def joinCommas : List (List Lexeme) → List Lexeme
  | [] => []
  | [entry] => entry
  | entry :: entry' :: entries => entry ++ comma :: joinCommas (entry' :: entries)

variable {ls options entry : List Lexeme} {entries : List (List Lexeme)}

section Commas

variable {as bs : List Lexeme} {d e : Nat}

theorem flat_append : flat d (as ++ bs) = (flat d as).bind fun e => flat e bs := by
  induction as generalizing d with
  | nil => rfl
  | cons x as ih =>
    simp only [cons_append, flat]
    split
    · exact ih
    split
    · split
      · rfl
      · exact ih
    split
    · rfl
    · exact ih

theorem splitClose_flat (balanced : flat d as = some e) :
    splitClose d (as ++ bs) = (splitClose e bs).map fun found => (as ++ found.1, found.2) := by
  induction as generalizing d with
  | nil =>
    cases balanced
    simp
  | cons x as ih =>
    simp only [flat] at balanced
    simp only [cons_append, splitClose]
    split at balanced
    · rename_i opens
      simp [opens, ih balanced, comp_def]
    split at balanced
    · rename_i noOpen closes
      split at balanced
      · cases balanced
      · rename_i inner
        rw [if_neg noOpen, if_pos closes, if_neg inner, ih balanced]
        simp [comp_def]
    split at balanced
    · cases balanced
    · rename_i noOpen noClose _
      simp [noOpen, noClose, ih balanced, comp_def]

theorem splitCommas_ne_nil : splitCommas d ls ≠ [] := by
  have onFirst_ne_nil : ∀ x entries, onFirstList x entries ≠ [] := by
    intro x entries
    cases entries <;> simp [onFirstList]
  cases ls with
  | nil => simp [splitCommas]
  | cons x ls =>
    unfold splitCommas
    repeat' split
    all_goals first
      | exact onFirst_ne_nil _ _
      | simp

/-- Lexemes without a comma of their own go to the first entry. -/
theorem splitCommas_flat (balanced : flat d as = some e) (bs : List Lexeme) : splitCommas d (as ++ bs) =
    match splitCommas e bs with
    | [] => [as]
    | entry :: entries => (as ++ entry) :: entries := by
  induction as generalizing d with
  | nil =>
    obtain rfl : d = e := some.inj balanced
    cases found : splitCommas d bs with
    | nil => exact absurd found splitCommas_ne_nil
    | cons entry entries => simp [found]
  | cons x as ih =>
    simp only [flat] at balanced
    simp only [cons_append, splitCommas]
    split at balanced
    · rename_i opens
      rw [if_pos opens, ih balanced]
      cases splitCommas e bs <;> simp [onFirstList]
    split at balanced
    · rename_i noOpen closes
      split at balanced
      · cases balanced
      · rw [if_neg noOpen, if_pos closes, ih balanced]
        cases splitCommas e bs <;> simp [onFirstList]
    split at balanced
    · cases balanced
    · rename_i noOpen noClose noComma
      rw [if_neg noOpen, if_neg noClose, if_neg noComma, ih balanced]
      cases splitCommas e bs <;> simp [onFirstList]

theorem joinCommas_onFirst (x : Lexeme) (entry : List Lexeme) (entries : List (List Lexeme)) :
    joinCommas ((x :: entry) :: entries) = x :: joinCommas (entry :: entries) := by
  cases entries <;> rfl

/-- The body and its entries: each entry is balanced, and the entries are all of the body. -/
theorem splitClose_entries {body : List Lexeme} (found : splitClose d ls = some (body, options)) :
    ls = body ++ closeParen :: options ∧
      ∃ entry entries, splitCommas d body = entry :: entries ∧ flat d entry = some 0 ∧
        (∀ other ∈ entries, flat 0 other = some 0) ∧ joinCommas (entry :: entries) = body := by
  induction ls generalizing d body with
  | nil => cases found
  | cons x ls ih =>
    unfold splitClose at found
    split at found
    · rename_i opens
      obtain ⟨⟨inner, _⟩, closed, same⟩ := map_eq_some_iff.mp found
      cases same
      obtain ⟨rfl, entry, entries, split, first, others, joined⟩ := ih closed
      refine ⟨rfl, x :: entry, entries, ?_, ?_, others, ?_⟩
      · rw [splitCommas, if_pos opens, split]
        rfl
      · rw [flat, if_pos opens, first]
      · rw [joinCommas_onFirst, joined]
    split at found
    · rename_i noOpen closes
      split at found
      · rename_i outermost
        cases found
        exact ⟨by rw [closes]; rfl, [], [], rfl, by rw [outermost]; rfl, by simp, rfl⟩
      rename_i deeper
      obtain ⟨⟨inner, _⟩, closed, same⟩ := map_eq_some_iff.mp found
      cases same
      obtain ⟨rfl, entry, entries, split, first, others, joined⟩ := ih closed
      refine ⟨rfl, x :: entry, entries, ?_, ?_, others, ?_⟩
      · rw [splitCommas, if_neg noOpen, if_pos closes, split]
        rfl
      · rw [flat, if_neg noOpen, if_pos closes, if_neg deeper, first]
      · rw [joinCommas_onFirst, joined]
    · rename_i noOpen noClose
      obtain ⟨⟨inner, _⟩, closed, same⟩ := map_eq_some_iff.mp found
      cases same
      obtain ⟨rfl, entry, entries, split, first, others, joined⟩ := ih closed
      by_cases separates : x = comma ∧ d = 0
      · refine ⟨rfl, [], entry :: entries, ?_, ?_, ?_, ?_⟩
        · rw [splitCommas, if_neg noOpen, if_neg noClose, if_pos separates, split]
        · rw [separates.2]
          rfl
        · exact forall_mem_cons.mpr ⟨separates.2 ▸ first, others⟩
        · rw [joinCommas, joined, separates.1]
          rfl
      · refine ⟨rfl, x :: entry, entries, ?_, ?_, others, ?_⟩
        · rw [splitCommas, if_neg noOpen, if_neg noClose, if_neg separates, split]
          rfl
        · rw [flat, if_neg noOpen, if_neg noClose, if_neg separates, first]
        · rw [joinCommas_onFirst, joined]

theorem splitCommas_join (balanced : ∀ other ∈ entry :: entries, flat 0 other = some 0) :
    splitCommas 0 (joinCommas (entry :: entries)) = entry :: entries := by
  induction entries generalizing entry with
  | nil =>
    have first := splitCommas_flat (balanced entry mem_cons_self) []
    simpa [joinCommas, splitCommas] using first
  | cons next entries ih =>
    have rest := ih (forall_mem_cons.mp balanced).2
    rw [joinCommas, splitCommas_flat (balanced entry mem_cons_self)]
    simp [splitCommas, comma, openParen, closeParen, rest]

theorem splitClose_join (balanced : ∀ other ∈ entry :: entries, flat 0 other = some 0)
    (options : List Lexeme) :
    splitClose 0 (joinCommas (entry :: entries) ++ closeParen :: options) =
      some (joinCommas (entry :: entries), options) := by
  induction entries generalizing entry with
  | nil =>
    rw [joinCommas, splitClose_flat (balanced entry mem_cons_self)]
    simp [splitClose, openParen, closeParen]
  | cons next entries ih =>
    have rest := ih (forall_mem_cons.mp balanced).2
    rw [joinCommas, append_assoc, splitClose_flat (balanced entry mem_cons_self)]
    simp only [comma, closeParen] at rest ⊢
    simp [splitClose, openParen, closeParen, rest]

theorem splitOpen_eq {head rest : List Lexeme} (found : splitOpen ls = some (head, rest)) :
    ls = head ++ openParen :: rest ∧ ∀ other, splitOpen (head ++ openParen :: other) = some (head, other) := by
  induction ls generalizing head with
  | nil => cases found
  | cons x ls ih =>
    unfold splitOpen at found
    split at found
    · rename_i opens
      cases found
      exact ⟨by rw [opens]; rfl, fun other => by simp [splitOpen]⟩
    rename_i noOpen
    obtain ⟨⟨front, _⟩, read, same⟩ := map_eq_some_iff.mp found
    cases same
    obtain ⟨rfl, again⟩ := ih read
    exact ⟨rfl, fun other => by simp [splitOpen, noOpen, again other]⟩

end Commas

theorem textOf_joinCommas (entries : List (List Lexeme)) :
    textOf (joinCommas entries) = joinWith [','] (entries.map textOf) := by
  induction entries with
  | nil => rfl
  | cons entry entries ih =>
    cases entries with
    | nil => rfl
    | cons next entries =>
      rw [joinCommas, textOf_append, textOf_cons, ih]
      simp [joinWith, comma, Lexeme.text]

/-! ## Chains of entries -/

theorem chain_symbol {c : Char} (noWord : isIdChar c = false) (plain : isOpening c = false)
    (chain : Chain ls) : Chain (.symbol c :: ls) :=
  ⟨fits_symbol plain noWord _, chain⟩

/-- What stands before a comma can stand before a parenthesis, and the other way round. -/
theorem shape_delimiter {x : Lexeme} {c d : Char} (shape : Shape x (some c))
    (first : c = ',' ∨ c = ')') (second : d = ',' ∨ d = ')') : Shape x (some d) := by
  have plain : isIdChar d = false ∧ isQuote d = false ∧ d ≠ '-' ∧ d ≠ '*' := by
    obtain rfl | rfl := second <;> decide
  generalize following : some c = o at shape
  cases shape with
  | space blank => exact .space blank
  | line _ ends =>
    have isBreak := ends c following.symm
    obtain rfl | rfl := first <;> cases isBreak
  | block ends => exact .block ends
  | openBlock => cases following
  | quoted quote closes _ =>
    refine .quoted quote closes ?_
    rintro ⟨⟩
    exact absurd quote (by simp [plain.2.1])
  | bracket name => exact .bracket name
  | word nonempty all _ =>
    refine .word nonempty all fun e same => ?_
    cases same
    exact plain.1
  | symbol noWord plain => exact .symbol noWord plain
  | dash => exact .dash (by simp [plain.2.2.1])
  | slash => exact .slash (by simp [plain.2.2.2])
  | openQuote | openBracket => cases following

/-- The lexemes of the entry, before a comma or the end of the body. -/
def EntryChain (entry : List Lexeme) : Prop := Chain (entry ++ [comma])

theorem chain_comma (chain : Chain ls) : Chain (comma :: ls) :=
  chain_symbol (by decide) (by decide) chain

/-- The entries of a body between its end and a comma. -/
theorem EntryChain.of_append {rest : List Lexeme} (chain : Chain (entry ++ rest))
    (following : (textOf rest).head? = some ',' ∨ (textOf rest).head? = some ')') :
    EntryChain entry := by
  apply Chain.append chain.left (chain_comma (show Chain [] from trivial))
  intro x last
  have shape := chain.joint x last
  obtain next | next := following
  · rwa [next] at shape
  · rw [next] at shape
    exact shape_delimiter shape (.inr rfl) (.inl rfl)

theorem entryChain_of_join (chain : Chain (joinCommas (entry :: entries) ++ closeParen :: options)) :
    ∀ other ∈ entry :: entries, EntryChain other := by
  induction entries generalizing entry with
  | nil =>
    intro other member
    obtain rfl : other = entry := by simpa using member
    exact .of_append chain (.inr rfl)
  | cons next entries ih =>
    rw [joinCommas, append_assoc] at chain
    exact forall_mem_cons.mpr ⟨.of_append chain (.inl rfl), ih (Chain.right chain).2⟩

/-- Entries put together. -/
theorem chain_join (each : ∀ other ∈ entry :: entries, EntryChain other)
    (rest : Chain (closeParen :: options)) :
    Chain (joinCommas (entry :: entries) ++ closeParen :: options) := by
  have first := each entry mem_cons_self
  induction entries generalizing entry with
  | nil =>
    refine Chain.append first.left rest fun x last => ?_
    exact shape_delimiter (first.joint x last) (.inl rfl) (.inr rfl)
  | cons next entries ih =>
    have others := (forall_mem_cons.mp each).2
    rw [joinCommas, append_assoc]
    exact Chain.append first.left (chain_comma (ih others (others next mem_cons_self)))
      first.joint

/-! ## The type of a column -/

/-- A word at which a constraint can start. -/
def mayStart (x : Lexeme) : Bool := wordIs ("generated" :: constraintWords) x

theorem startsConstraint_of_not {x : Lexeme} (free : mayStart x = false) (ls : List Lexeme) :
    startsConstraint (x :: ls) = false := by
  cases x with
  | word w =>
    simp only [mayStart, wordIs, map_cons, contains_cons, or_eq_false_iff] at free
    simp only [startsConstraint, wordIs, free.2, map_cons, map_nil, contains_cons,
      free.1, contains_nil, Bool.or_self, Bool.false_and]
  | _ => rfl

theorem foldl_depthAfter {d e : Nat} (balanced : flat d ls = some e) :
    ls.foldl depthAfter d = e := by
  induction ls generalizing d with
  | nil => exact some.inj balanced
  | cons x ls ih =>
    unfold flat at balanced
    rw [foldl_cons, depthAfter]
    split at balanced
    · rename_i opens
      rw [if_pos opens, ih balanced]
    split at balanced
    · rename_i noOpen closes
      split at balanced
      · cases balanced
      · rw [if_neg noOpen, if_pos closes, ih balanced]
    split at balanced
    · cases balanced
    · rename_i noOpen noClose _
      rw [if_neg noOpen, if_neg noClose, ih balanced]

theorem splitType_append {as : List Lexeme} (free : ∀ x ∈ as, mayStart x = false)
    (bs : List Lexeme) (d : Nat) : splitType d (as ++ bs) =
      (as ++ (splitType (as.foldl depthAfter d) bs).1, (splitType (as.foldl depthAfter d) bs).2) := by
  induction as generalizing d with
  | nil => rfl
  | cons x as ih =>
    have noStart := startsConstraint_of_not (free x mem_cons_self) (as ++ bs)
    rw [cons_append, splitType, noStart, ih (forall_mem_cons.mp free).2]
    simp

theorem mayStart_of_isTrivia {x : Lexeme} (trivia : isTrivia x = true) : mayStart x = false := by
  cases x <;> first
    | rfl
    | cases trivia

theorem flat_of_isTrivia (all : ls.all isTrivia = true) (d : Nat) : flat d ls = some d := by
  induction ls with
  | nil => rfl
  | cons x ls ih =>
    simp only [all_cons, and_eq_true] at all
    have noParen : x ≠ openParen ∧ x ≠ closeParen ∧ x ≠ comma := by
      refine ⟨?_, ?_, ?_⟩ <;>
      · rintro rfl
        exact absurd all.1 (by decide)
    rw [flat, if_neg noParen.1, if_neg noParen.2.1, if_neg fun separates => noParen.2.2 separates.1,
      ih all.2]

theorem significant_trivia (all : ls.all isTrivia = true) : significant ls = [] := by
  rw [significant, filter_eq_nil_iff]
  intro x member
  simp [all_eq_true.mp all x member]

theorem significant_append (as bs : List Lexeme) :
    significant (as ++ bs) = significant as ++ significant bs := filter_append ..

theorem startsConstraint_append (starts : startsConstraint ls = true) (more : List Lexeme) :
    startsConstraint (ls ++ more) = true := by
  cases ls with
  | nil => cases starts
  | cons x ls =>
    simp only [startsConstraint, cons_append, or_eq_true, and_eq_true] at starts ⊢
    refine starts.imp id (And.imp_right fun always => ?_)
    cases found : ls.dropWhile isTrivia with
    | nil => simp [found] at always
    | cons y rest =>
      rw [found] at always
      rw [dropWhile_append, found]
      simpa using always

/-- A column read from its parts: blanks, what stands before the constraints, the constraints. -/
theorem columnOf_parts {gap middle constraints trail : List Lexeme} (name : Str)
    (blanks : gap.all isTrivia = true) (free : ∀ x ∈ middle, mayStart x = false)
    (balanced : flat 0 middle = some 0)
    (starts : constraints = [] ∨ startsConstraint constraints = true)
    (ending : trail.all isTrivia = true) :
    columnOf name (gap ++ (middle ++ (constraints ++ trail))) =
      .column name (significant middle) (if constraints = [] then [] else constraints ++ trail) := by
  have freeTrivia : ∀ ls : List Lexeme, ls.all isTrivia = true → ∀ x ∈ ls, mayStart x = false :=
    fun ls all x member => mayStart_of_isTrivia (all_eq_true.mp all x member)
  have split := splitType_append (freeTrivia gap blanks) (middle ++ (constraints ++ trail)) 0
  rw [foldl_depthAfter (flat_of_isTrivia blanks 0), splitType_append free _ 0,
    foldl_depthAfter balanced] at split
  obtain rfl | starts := starts
  · have last := splitType_append (freeTrivia trail ending) [] 0
    rw [append_nil] at last
    rw [nil_append, last] at split
    simp [columnOf, split, splitType, significant_append, significant_trivia blanks,
      significant_trivia ending]
  · have last : splitType 0 (constraints ++ trail) = ([], constraints ++ trail) := by
      have begins := startsConstraint_append starts trail
      cases whole : constraints ++ trail with
      | nil => simp [whole, startsConstraint] at begins
      | cons x ls =>
        rw [whole] at begins
        simp [splitType, begins]
    have nonempty : constraints ≠ [] := by
      rintro rfl
      cases starts
    simp [columnOf, split, last, significant_append, significant_trivia blanks, nonempty]

end Dbx.Guarantees.TableEntries
