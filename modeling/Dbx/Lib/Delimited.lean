import Dbx.Lib.Text
import Mathlib.Data.List.Forall2

/-!
# Delimited identifiers

A name between two quotes, its closing quotes doubled (`enclose`), and the reading of a
path of dot-separated names, bare or quoted (`readPath`). The grammar says which quotes
there are, whether a doubled closing quote and an escape character are read inside them,
and which characters stand in a bare name. A text `Names` a value if it is read as that one
name at every place of a path; `enclose_names` and `bare_names` give such texts and
`readPath_joinWith` reads a path of them.
-/
namespace Dbx.Lib.Delimited

open Dbx.Lib.Text List

structure Quotes where
  opening : Char
  closing : Char
  deriving DecidableEq, Repr

/-- Every `c` written twice. -/
def double (c : Char) (t : Str) : Str := t.flatMap fun x => if x == c then [c, c] else [x]

theorem double_append (c : Char) (t u : Str) : double c (t ++ u) = double c t ++ double c u :=
  flatMap_append

variable {c : Char} {t : Str}

theorem double_cons_of_ne {x : Char} (h : x ≠ c) (t : Str) :
    double c (x :: t) = x :: double c t := by
  simp [double, h]

theorem double_eq_self (h : c ∉ t) : double c t = t := by
  induction t with
  | nil => rfl
  | cons x t ih =>
    have other : x ≠ c := fun same => h (same ▸ mem_cons_self)
    rw [double_cons_of_ne other, ih fun member => h (mem_cons_of_mem x member)]

theorem mem_of_mem_double {x : Char} (h : x ∈ double c t) : x ∈ t := by
  obtain ⟨y, member, piece⟩ := mem_flatMap.mp h
  by_cases same : y = c
  · simp only [same, beq_self_eq_true, if_true, mem_cons, not_mem_nil, or_false,
      or_self] at piece
    rw [piece, ← same]
    exact member
  · rw [if_neg (by simpa using same)] at piece
    rw [mem_singleton.mp piece]
    exact member

/-- The text between the quotes, with its closing quotes doubled. -/
def enclose (q : Quotes) (t : Str) : Str := q.opening :: (double q.closing t ++ [q.closing])

structure Grammar where
  quotes : List Quotes
  /-- A closing quote is read twice inside the quotes. -/
  doubled : Bool
  /-- The character that escapes the next one inside the quotes. -/
  escape : Option Char
  unescape : Char → Char
  bareStart : Char → Bool
  bareRest : Char → Bool
  /-- The spelling under which a bare name is known. -/
  fold : Char → Char

namespace Grammar

/-- Where the reading of a path stands; `current` is the name read so far. -/
inductive Mode where
  | start
  | bare (current : Str)
  | inside (closing : Char) (current : Str)
  | escaped (closing : Char) (current : Str)
  | closed (closing : Char) (current : Str)
  deriving DecidableEq, Repr

variable (g : Grammar)

/-- One character: the name that ended with it, if any, and the next mode. -/
def step : Mode → Char → Option (Option Str × Mode)
  | .start, c =>
    match g.quotes.find? (fun q => q.opening == c) with
    | some q => some (none, .inside q.closing [])
    | none => if g.bareStart c then some (none, .bare [g.fold c]) else none
  | .bare current, c =>
    if c == '.' then some (some current, .start)
    else if g.bareRest c then some (none, .bare (current ++ [g.fold c])) else none
  | .inside closing current, c =>
    if c == closing then some (none, .closed closing current)
    else if g.escape == some c then some (none, .escaped closing current)
    else some (none, .inside closing (current ++ [c]))
  | .escaped closing current, c => some (none, .inside closing (current ++ [g.unescape c]))
  | .closed closing current, c =>
    if g.doubled && c == closing then some (none, .inside closing (current ++ [closing]))
    else if c == '.' then some (some current, .start) else none

def finish : Mode → Option Str
  | .bare current | .closed _ current => some current
  | .start | .inside _ _ | .escaped _ _ => none

/-- The names of the path, if the whole text is one. -/
def read : Mode → Str → Option (List Str)
  | mode, [] => (finish mode).map fun name => [name]
  | mode, c :: rest =>
    match g.step mode c with
    | none => none
    | some (none, next) => read next rest
    | some (some name, next) => (read next rest).map (name :: ·)

def readPath (t : Str) : Option (List Str) := g.read .start t

/-- The text is read as the one name `value`, last in a path or before a dot. -/
def Names (t value : Str) : Prop :=
  g.readPath t = some [value] ∧
    ∀ rest, g.readPath (t ++ '.' :: rest) = (g.readPath rest).map (value :: ·)

variable {g}

/-- A path of texts that each name a value is read as the values. -/
theorem readPath_joinWith {texts values : List Str} (nonempty : texts ≠ [])
    (names : List.Forall₂ g.Names texts values) :
    g.readPath (joinWith ['.'] texts) = some values := by
  induction names with
  | nil => exact absurd rfl nonempty
  | cons name names ih =>
    cases names with
    | nil => exact name.1
    | cons second names =>
      rw [joinWith, append_assoc, singleton_append, name.2, ih (by simp)]
      rfl

/-! ## Quoted names -/

/-- The quoted text can be written: without an escape character, and without a closing
quote unless a doubled one is read. -/
structure Writable (g : Grammar) (q : Quotes) (t : Str) : Prop where
  noEscape : ∀ c ∈ t, g.escape ≠ some c
  closing : g.doubled = true ∨ q.closing ∉ t

theorem Writable.tail {q : Quotes} (h : Writable g q (c :: t)) :
    Writable g q t where
  noEscape d member := h.noEscape d (mem_cons_of_mem _ member)
  closing := h.closing.imp id fun free member => free (mem_cons_of_mem _ member)

section

variable {q : Quotes} {t : Str} (h : Writable g q t)
include h

theorem read_double (current rest : Str) :
    g.read (.inside q.closing current) (double q.closing t ++ rest) =
      g.read (.inside q.closing (current ++ t)) rest := by
  induction t generalizing current with
  | nil => simp [double]
  | cons c t ih =>
    have next := ih h.tail (current ++ [c])
    rw [append_assoc, singleton_append] at next
    rw [← next]
    by_cases isClosing : c = q.closing
    · subst isClosing
      have doubled : g.doubled = true := by
        apply h.closing.resolve_right
        simp
      simp [double, read, step, doubled]
    · have noEscape : g.escape ≠ some c := h.noEscape c (mem_cons_self ..)
      simp [double, read, step, isClosing, noEscape]

theorem read_enclose (found : g.quotes.find? (fun p => p.opening == q.opening) = some q)
    (rest : Str) :
    g.readPath (enclose q t ++ rest) = g.read (.closed q.closing t) rest := by
  have inner := read_double h [] (q.closing :: rest)
  simp [readPath, enclose, read, step, found, inner, beq_self_eq_true]

theorem enclose_names (found : g.quotes.find? (fun p => p.opening == q.opening) = some q)
    (notDot : q.closing ≠ '.') : g.Names (enclose q t) t := by
  constructor
  · have whole := read_enclose h found []
    rw [append_nil] at whole
    rw [whole]
    rfl
  · intro rest
    rw [read_enclose h found]
    have other : ('.' == q.closing) = false := beq_eq_false_iff_ne.mpr notDot.symm
    simp [read, step, other, readPath]

end

/-! ## Bare names -/

theorem read_bare (rests : t.all g.bareRest = true) (noDot : '.' ∉ t) (current rest : Str) :
    g.read (.bare current) (t ++ rest) = g.read (.bare (current ++ t.map g.fold)) rest := by
  induction t generalizing current with
  | nil => simp
  | cons c t ih =>
    rw [all_cons, Bool.and_eq_true] at rests
    rw [mem_cons, not_or] at noDot
    have next := ih rests.2 noDot.2 (current ++ [g.fold c])
    rw [append_assoc, singleton_append] at next
    rw [map_cons, ← next]
    have other : (c == '.') = false := beq_eq_false_iff_ne.mpr (Ne.symm noDot.1)
    simp [read, step, other, rests.1]

theorem bare_names (start : g.bareStart c = true)
    (noQuote : g.quotes.find? (fun p => p.opening == c) = none) (rests : t.all g.bareRest = true)
    (noDot : '.' ∉ t) : g.Names (c :: t) ((c :: t).map g.fold) := by
  constructor
  · have whole := read_bare rests noDot [g.fold c] []
    rw [append_nil] at whole
    simp only [readPath, read, step, noQuote, start, if_true, whole]
    rfl
  · intro rest
    have front := read_bare rests noDot [g.fold c] ('.' :: rest)
    simp [readPath, read, step, noQuote, start, front, beq_self_eq_true]

end Grammar

end Dbx.Lib.Delimited
