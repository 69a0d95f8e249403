import Mathlib.Data.List.DropRight

/-!
# Text as character lists

The string operations of the Rust standard library that the modelled code uses,
over `List Char`. Every operation here works on characters; a byte comparison
of the source against ASCII constants is the same comparison on characters,
because no byte of a multi-byte UTF-8 sequence is an ASCII byte.
-/
namespace Dbx.Lib.Text

open List

abbrev Str := List Char

/-- Unicode `White_Space`, as `char::is_whitespace` tests it. -/
def isWhitespace (c : Char) : Bool :=
  let n := c.toNat
  (9 ≤ n && n ≤ 13) || n == 32 || n == 0x85 || n == 0xA0 || n == 0x1680 ||
    (0x2000 ≤ n && n ≤ 0x200A) || n == 0x2028 || n == 0x2029 || n == 0x202F ||
    n == 0x205F || n == 0x3000

/-- `u8::is_ascii_whitespace`: vertical tab is not in it. -/
def isAsciiWhitespace (c : Char) : Bool :=
  c == ' ' || c == '\t' || c == '\n' || c == '\x0c' || c == '\r'

/-- General category `Cc`, as `char::is_control` tests it. -/
def isControl (c : Char) : Bool :=
  c.toNat < 32 || (127 ≤ c.toNat && c.toNat < 160)

def trimStart (t : Str) : Str := t.dropWhile isWhitespace

def trimEnd (t : Str) : Str := t.rdropWhile isWhitespace

def trim (t : Str) : Str := trimEnd (trimStart t)

def eqIgnoreAsciiCase (a b : Str) : Bool := a.map Char.toLower == b.map Char.toLower

def toAsciiUppercase (t : Str) : Str := t.map Char.toUpper

def toAsciiLowercase (t : Str) : Str := t.map Char.toLower

/-- The part after the last line feed. -/
def lastLine (t : Str) : Str := t.rtakeWhile (· != '\n')

/-- Everything up to and including the last line feed. -/
def beforeLastLine (t : Str) : Str := t.rdropWhile (· != '\n')

/-- `rsplit_once('\n').map(|x| x.0)`: the part before the last line feed. -/
def beforeLastNewline (t : Str) : Option Str :=
  if '\n' ∈ t then some (beforeLastLine t).dropLast else none

/-- The maximal runs of characters that satisfy `p`, in order. -/
def wordsBy (p : Char → Bool) (t : Str) : List Str :=
  (t.splitOnP (fun c => !p c)).filter (fun w => !w.isEmpty)

def splitWhitespace (t : Str) : List Str := wordsBy (fun c => !isWhitespace c) t

/-- `split_inclusive` at a character: every segment but the last ends with it. -/
def splitInclusive (sep : Char) : Str → List Str
  | [] => []
  | c :: rest =>
    if c == sep then [c] :: splitInclusive sep rest
    else match splitInclusive sep rest with
      | [] => [[c]]
      | segment :: segments => (c :: segment) :: segments

/-- `split_once` at a text: what stands after its first occurrence. -/
def afterFirst (needle : Str) : Str → Option Str
  | [] => if needle.isEmpty then some [] else none
  | c :: rest =>
    if needle.isPrefixOf (c :: rest) then some ((c :: rest).drop needle.length)
    else afterFirst needle rest

/-- The first text occurs in the second. -/
def occursIn (needle : Str) : Str → Bool
  | [] => needle.isEmpty
  | c :: rest => needle.isPrefixOf (c :: rest) || occursIn needle rest

/-- `join` of a list of texts with a separator. -/
def joinWith (sep : Str) : List Str → Str
  | [] => []
  | [t] => t
  | t :: u :: rest => t ++ sep ++ joinWith sep (u :: rest)

variable {c : Char}

/-- Two texts cut at the first occurrence of a character that neither front contains. -/
theorem append_cons_inj {s s' t t' : Str} (hs : c ∉ s) (hs' : c ∉ s')
    (same : s ++ c :: t = s' ++ c :: t') : s = s' ∧ t = t' := by
  induction s generalizing s' with
  | nil =>
    cases s' with
    | nil => exact ⟨rfl, (cons.inj same).2⟩
    | cons d s' => exact absurd (mem_cons.mpr (.inl (cons.inj same).1)) hs'
  | cons d s ih =>
    cases s' with
    | nil => exact absurd (mem_cons.mpr (.inl (cons.inj same).1.symm)) hs
    | cons d' s' =>
      obtain ⟨rfl, tail⟩ := cons.inj same
      obtain ⟨rfl, rfl⟩ := ih (fun h => hs (mem_cons_of_mem _ h))
        (fun h => hs' (mem_cons_of_mem _ h)) tail
      exact ⟨rfl, rfl⟩

/-- Texts joined by a character that none of them contains can be told apart. -/
theorem joinWith_inj {texts texts' : List Str} (length : texts.length = texts'.length)
    (free : ∀ t ∈ texts, c ∉ t) (free' : ∀ t ∈ texts', c ∉ t)
    (same : joinWith [c] texts = joinWith [c] texts') : texts = texts' := by
  match texts, texts', length with
  | [], [], _ => rfl
  | [t], [t'], _ => exact congrArg (fun u => [u]) same
  | t :: u :: rest, t' :: u' :: rest', length =>
    simp only [joinWith, append_assoc, singleton_append] at same
    obtain ⟨rfl, tail⟩ := append_cons_inj (free t (by simp)) (free' t' (by simp)) same
    rw [joinWith_inj (by simpa using length) (forall_mem_cons.mp free).2
      (forall_mem_cons.mp free').2 tail]

/-- The first element that is not dropped. -/
theorem of_dropWhile_cons {α : Type} {p : α → Bool} {l rest : List α} {a : α}
    (h : l.dropWhile p = a :: rest) : p a = false := by
  have stop := head?_dropWhile_not p l
  rw [h] at stop
  simpa using stop

theorem drop_takeWhile {α : Type} (p : α → Bool) (l : List α) :
    l.drop (l.takeWhile p).length = l.dropWhile p := by
  induction l with
  | nil => rfl
  | cons x l ih =>
    rw [takeWhile_cons, dropWhile_cons]
    split
    · exact ih
    · rfl

/-! ## Characters -/

/-- A property of all small characters, by their codes. -/
theorem forall_char_lt {bound : Nat} {P : Char → Prop}
    (h : ∀ n < bound, P (Char.ofNat n)) (c : Char) (small : c.toNat < bound) : P c := by
  have := h c.toNat small
  rwa [Char.ofNat_toNat] at this

theorem toLower_toUpper (c : Char) : c.toUpper.toLower = c.toLower := by
  by_cases small : c.toNat < 128
  · revert c
    apply forall_char_lt
    decide
  have notLower : ¬ ('a'.val ≤ c.val ∧ c.val ≤ 'z'.val) := by
    intro range
    have bound : c.toNat ≤ 122 := UInt32.le_iff_toNat_le.mp range.2
    omega
  delta Char.toUpper
  rw [dif_neg notLower]

/-- What holds of small characters and their lower case holds of all characters. -/
theorem toLower_congr {α : Type} {f : Char → α}
    (small : ∀ n < 128, f (Char.ofNat n).toLower = f (Char.ofNat n)) (c : Char) :
    f c.toLower = f c := by
  by_cases ascii : c.toNat < 128
  · exact forall_char_lt (P := fun c => f c.toLower = f c) small c ascii
  have notUpper : ¬ ('A'.val ≤ c.val ∧ c.val ≤ 'Z'.val) := by
    intro range
    have bound : c.toNat ≤ 90 := UInt32.le_iff_toNat_le.mp range.2
    omega
  delta Char.toLower
  rw [dif_neg notUpper]

theorem isAlpha_eq : c.isAlpha = (c.isUpper || c.isLower) := rfl

theorem isUpper_eq_true : c.isUpper = true ↔ 'A'.val ≤ c.val ∧ c.val ≤ 'Z'.val := decide_eq_true_iff

theorem isLower_eq_true : c.isLower = true ↔ 'a'.val ≤ c.val ∧ c.val ≤ 'z'.val := by
  delta Char.isLower
  simp

theorem isAlphanum_lt (h : c.isAlphanum = true) : c.toNat < 128 := by
  simp only [Char.isAlphanum, isAlpha_eq, isUpper_eq_true, isLower_eq_true, Char.isDigit,
    Bool.or_eq_true, Bool.and_eq_true, decide_eq_true_eq, UInt32.le_iff_toNat_le, ge_iff_le] at h
  have code : c.toNat = c.val.toNat := rfl
  have upper : 'Z'.val.toNat = 90 := rfl
  have lower : 'z'.val.toNat = 122 := rfl
  have nine : '9'.val.toNat = 57 := rfl
  omega

/-! ## Words -/

section Words

variable {p : Char → Bool}

theorem wordsBy_append_cons (stop : p c = false) (front back : Str) :
    wordsBy p (front ++ c :: back) = wordsBy p front ++ wordsBy p back := by
  unfold wordsBy
  rw [splitOnP_append_cons front back (by simp [stop]), filter_append]

theorem wordsBy_of_all {w : Str} (all : w.all p = true) :
    wordsBy p w = if w.isEmpty then [] else [w] := by
  unfold wordsBy
  rw [splitOnP_eq_singleton (by simpa using all)]
  cases w <;> rfl

/-- A run of word characters between characters that are none is a word. -/
theorem mem_wordsBy {front w back : Str} (nonempty : w ≠ []) (all : w.all p = true)
    (left : front.getLast?.any p = false) (right : back.head?.any p = false) :
    w ∈ wordsBy p (front ++ (w ++ back)) := by
  have alone : w ∈ wordsBy p w := by simp [wordsBy_of_all all, nonempty]
  have first : w ∈ wordsBy p (w ++ back) := by
    cases back with
    | nil => rwa [append_nil]
    | cons c back =>
      rw [wordsBy_append_cons (by simpa using right)]
      exact mem_append_left _ alone
  induction front using reverseRecOn with
  | nil => exact first
  | append_singleton front c _ =>
    rw [append_assoc, singleton_append, wordsBy_append_cons (by simpa using left)]
    exact mem_append_right _ first

/-- Where a word stands. -/
theorem exists_of_mem_wordsBy {text w : Str} (member : w ∈ wordsBy p text) :
    ∃ front back, text = front ++ (w ++ back) ∧ w ≠ [] ∧ w.all p = true ∧
      front.getLast?.any p = false ∧ back.head?.any p = false := by
  induction hn : text.length using Nat.strong_induction_on generalizing text with
  | _ n ih =>
    -- The text up to its first character that is in no word.
    have split := takeWhile_append_dropWhile (p := p) (l := text)
    have all : (text.takeWhile p).all p = true := by simp
    cases after : text.dropWhile p with
    | nil =>
      rw [after, append_nil] at split
      rw [split] at all
      rw [wordsBy_of_all all] at member
      split at member
      · cases member
      · rename_i nonempty
        obtain rfl := mem_singleton.mp member
        exact ⟨[], [], by simp, by simpa using nonempty, all, rfl, rfl⟩
    | cons c back =>
      have stop := of_dropWhile_cons after
      rw [after] at split
      rw [← split, wordsBy_append_cons stop, wordsBy_of_all all, mem_append] at member
      obtain first | later := member
      · split at first
        · cases first
        rename_i nonempty
        obtain rfl := mem_singleton.mp first
        exact ⟨[], c :: back, by simpa using split.symm, by simpa using nonempty, all, rfl,
          by simpa using stop⟩
      · have shorter : back.length < n := by
          rw [← hn, ← split, length_append, length_cons]
          omega
        obtain ⟨front, rest, rfl, nonempty, word, left, right⟩ := ih _ shorter later rfl
        refine ⟨text.takeWhile p ++ c :: front, rest, ?_, nonempty, word, ?_, right⟩
        · rw [append_assoc, cons_append, split]
        · cases front with
          | nil => simpa using stop
          | cons d front => simpa [getLast?_append, getLast?_cons] using left

end Words

/-! ## Parts between separators -/

section Parts

variable {α : Type} {p : α → Bool}

/-- The first part, and the parts of what follows the first separator. -/
theorem splitOnP_eq (l : List α) : l.splitOnP p = l.takeWhile (!p ·) ::
      (match l.dropWhile (!p ·) with
        | [] => []
        | _ :: rest => rest.splitOnP p) := by
  have split := takeWhile_append_dropWhile (p := (!p ·)) (l := l)
  have free : ∀ x ∈ l.takeWhile (!p ·), p x = false := by
    intro x member
    simpa using mem_takeWhile_imp member
  cases after : l.dropWhile (!p ·) with
  | nil =>
    rw [after, append_nil] at split
    rw [split] at free
    rw [splitOnP_eq_singleton free, split]
  | cons sep rest =>
    have isSep : p sep = true := by simpa using of_dropWhile_cons after
    rw [after] at split
    conv => lhs; rw [← split]
    rw [splitOnP_append_cons _ _ isSep, splitOnP_eq_singleton free]
    rfl

/-- What is no separator stands in the parts, in its order. -/
theorem flatten_splitOnP (l : List α) : (l.splitOnP p).flatten = l.filter fun x => !p x := by
  induction l with
  | nil => rfl
  | cons y l ih =>
    rw [splitOnP_cons_eq_if_modifyHead, filter_cons, ← ih]
    cases parts : l.splitOnP p with
    | nil => exact absurd parts (splitOnP_ne_nil p l)
    | cons first rest => cases p y <;> rfl

theorem mem_splitOnP {l : List α} {x : α} :
    (∃ part ∈ l.splitOnP p, x ∈ part) ↔ x ∈ l ∧ p x = false := by
  rw [← mem_flatten, flatten_splitOnP, mem_filter, Bool.not_eq_true']

end Parts

variable (t : Str)

theorem lastLine_append_newline : lastLine (t ++ ['\n']) = [] := by
  simp [lastLine]

theorem lastLine_beforeLastLine : lastLine (beforeLastLine t) = [] := by
  rw [lastLine, rtakeWhile_eq_nil_iff]
  exact fun h => rdropWhile_last_not _ _ h

theorem lastLine_append {u : Str} (h : '\n' ∉ u) : lastLine (t ++ u) = lastLine t ++ u := by
  induction u using reverseRecOn with
  | nil => simp
  | append_singleton u c ih =>
    have hc : (c != '\n') = true := by
      simp only [mem_append, mem_singleton, not_or] at h
      simpa using Ne.symm h.2
    have front := ih (fun m => h (mem_append_left _ m))
    unfold lastLine at front ⊢
    rw [← append_assoc, rtakeWhile_concat, if_pos hc, front, append_assoc]

section

variable {t : Str} {c : Char}

theorem trimStart_eq_self (h : t.head? = some c) (hc : isWhitespace c = false) : trimStart t = t := by
  obtain ⟨rest, rfl⟩ := head?_eq_some_iff.mp h
  exact dropWhile_cons_of_neg (by simp [hc])

variable (h : t.getLast? = some c) (hc : isWhitespace c = false)
include h hc

theorem getLast?_trimStart : (trimStart t).getLast? = some c := by
  obtain ⟨front, rfl⟩ := getLast?_eq_some_iff.mp h
  unfold trimStart
  rw [dropWhile_append]
  split
  · simp [dropWhile, hc]
  · simp

theorem trimEnd_eq_self : trimEnd t = t := by
  obtain ⟨front, rfl⟩ := getLast?_eq_some_iff.mp h
  exact rdropWhile_concat_neg _ _ _ (by simp [hc])

/-- Trimming keeps a last character that is not whitespace. -/
theorem getLast?_trim : (trim t).getLast? = some c := by
  have := getLast?_trimStart h hc
  rw [trim, trimEnd_eq_self this hc, this]

end

theorem getLast?_lastLine {t : Str} (h : t.getLast? = some c) (hc : c ≠ '\n') :
    (lastLine t).getLast? = some c := by
  obtain ⟨front, rfl⟩ := getLast?_eq_some_iff.mp h
  rw [lastLine_append _ (by simpa using hc.symm)]
  simp

theorem beforeLastLine_append_lastLine : beforeLastLine t ++ lastLine t = t :=
  rdropWhile_append_rtakeWhile

end Dbx.Lib.Text
