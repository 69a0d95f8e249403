import Mathlib.Data.List.Infix
import Dbx.Source.StatementSplitter

/-!
# Streaming against whole-text splitting

The statement splitter looks ahead only inside the chunk it is given. This module
says for which cuts of a text that makes no difference. A cut is harmless unless

* it falls inside an opening or closing dollar-quote tag, or
* it hides the second character of a comment opener while the first one completes
  the custom delimiter, or
* it follows a MySQL `--` that is no comment and whose second dash completes the
  custom delimiter.

`cutOk` walks the text before the cut with the lookahead of the whole text and
tests exactly that. Nothing is assumed about the tokenizer or the profile.
-/
namespace Dbx.Guarantees.ChunkIndependence

open Dbx.Lib.Text Dbx.Source Dbx.Source.SqlStatementSplitter List Option

variable (tokenize : Tokenizer)

/-- Outside every comment, quote and dollar-quoted string. -/
def inCode (s : SqlStatementSplitter) : Bool :=
  s.dollarQuoteTag.isNone && !s.inLineComment && !s.inBlockComment && !s.quoted

/-- `ch` ends with the custom delimiter what the buffer holds. -/
def completesDelimiter (s : SqlStatementSplitter) (ch : Char) : Bool :=
  s.customDelimiter.any (·.isSuffixOf (s.buffer ++ [ch]))

/-- The loop decides by the next character whether `ch` belongs to a comment opener. -/
def needsNext (s : SqlStatementSplitter) (ch : Char) (next : Option Char) : Bool :=
  (ch == '/' && next == some '*') ||
    (s.options.requiresWhitespaceAfterLineCommentDashes && s.previous == some '-' && ch == '-'
      && next.any (fun c => !isWhitespace c && !isControl c))

/-- `ch` completes the custom delimiter, but the choice between the delimiter and a comment
hangs on a character that is not in the chunk. -/
def delimiterAtCut (s : SqlStatementSplitter) (ch : Char) (next : Option Char) : Bool :=
  inCode s && completesDelimiter s ch && needsNext s ch next

/-- The text before a cut can be scanned without the text after it. -/
def cutOk (s : SqlStatementSplitter) : (skip : Nat) → (before after : Str) → Bool
  | skip, [], _ => skip == 0
  | skip + 1, _ :: before, after => cutOk s skip before after
  | 0, ch :: before, after =>
    let r := s.takeBranch tokenize ch (s.branch ch (before ++ after))
    (!before.isEmpty || !delimiterAtCut s ch after.head?) && cutOk r.1.1 r.2 before after

/-- Every cut of the chunk list is harmless. -/
def cutsOk (s : SqlStatementSplitter) : List Str → Bool
  | [] => true
  | chunk :: chunks =>
    cutOk tokenize (s.resolvePending chunk.head?) 0 chunk chunks.flatten &&
      cutsOk (s.pushChunkWithControl tokenize chunk).1 chunks

/-! ## What lookahead can change -/

def nameChar (ch : Char) : Bool := ch.isAlphanum || ch == '_'

/-- A dollar-quote tag: two dollar signs around a name. -/
def IsTag (tag : Str) : Prop := ∃ name : Str, tag = '$' :: (name ++ ['$']) ∧ name.all nameChar = true

/-- The rest of a tag is a name up to the first dollar sign. -/
theorem dollarQuoteTagTail_iff {text tail : Str} : dollarQuoteTagTail text = some tail ↔
    (∃ name : Str, tail = name ++ ['$'] ∧ name.all nameChar = true) ∧ tail <+: text := by
  induction text generalizing tail with
  | nil =>
    refine iff_of_false (fun h => by cases h) ?_
    rintro ⟨⟨name, rfl, -⟩, front⟩
    simp at front
  | cons ch rest ih =>
    have first (name : Str) : name ++ ['$'] <+: ch :: rest ↔ name = [] ∧ ch = '$' ∨
        ∃ name', name = ch :: name' ∧ name' ++ ['$'] <+: rest := by
      cases name with
      | nil => simp [cons_prefix_cons, eq_comm]
      | cons c name => simp [cons_prefix_cons]
    by_cases dollar : ch = '$'
    · subst dollar
      have notName : nameChar '$' = false := by decide
      simp only [dollarQuoteTagTail, BEq.rfl, if_true, Option.some.injEq]
      constructor
      · rintro rfl
        exact ⟨⟨[], rfl, rfl⟩, by simp⟩
      · rintro ⟨⟨name, rfl, all⟩, front⟩
        obtain ⟨rfl, -⟩ | ⟨name', rfl, -⟩ := (first name).mp front
        · rfl
        · simp [notName] at all
    · have isName : (!ch.isAlphanum && ch != '_') = !nameChar ch := by
        simp [nameChar, bne]
      simp only [dollarQuoteTagTail, beq_iff_eq, dollar, if_false, isName]
      cases named : nameChar ch with
      | false =>
        refine iff_of_false (by simp) ?_
        rintro ⟨⟨name, rfl, all⟩, front⟩
        obtain ⟨-, same⟩ | ⟨name', rfl, -⟩ := (first name).mp front
        · exact dollar same
        · simp [named] at all
      | true =>
        simp only [Bool.not_true, Bool.false_eq_true, if_false, map_eq_some_iff, ih]
        constructor
        · rintro ⟨_, ⟨⟨name, rfl, all⟩, front⟩, rfl⟩
          exact ⟨⟨ch :: name, rfl, by simp [named, all]⟩, cons_prefix_cons.mpr ⟨rfl, front⟩⟩
        · rintro ⟨⟨name, rfl, all⟩, front⟩
          obtain ⟨-, same⟩ | ⟨name', rfl, behind⟩ := (first name).mp front
          · exact absurd same dollar
          · simp only [all_cons, Bool.and_eq_true] at all
            exact ⟨_, ⟨⟨name', rfl, all.2⟩, behind⟩, rfl⟩

/-- A tag that opens a quote: its name starts with no digit. -/
def IsOpeningTag (tag : Str) : Prop :=
  ∃ name : Str, tag = '$' :: (name ++ ['$']) ∧ name.all nameChar = true ∧
    ∀ ch ∈ name.head?, ch.isAlpha = true ∨ ch = '_'

attribute [local simp] dollarQuoteTagAt

theorem dollarQuoteTagAt_cons (text : Str) : dollarQuoteTagAt ('$' :: text) =
    if text.head?.any (fun ch => ch == '$' || ch.isAlpha || ch == '_') then
      (dollarQuoteTagTail text).map ('$' :: ·) else none := by
  cases text with
  | nil => rfl
  | cons ch rest =>
    by_cases dollar : ch = '$'
    · simp [dollarQuoteTagTail, dollar]
    by_cases letter : ch.isAlpha = true ∨ ch = '_'
    · have named : (!ch.isAlphanum && ch != '_') = false := by
        obtain alpha | rfl := letter
        · simp [Char.isAlphanum, alpha]
        · rfl
      simp [dollarQuoteTagTail, dollar, letter, named, Function.comp_def]
    · simp [dollar, letter]

/-- The tag at the front of a text is the one that the text starts with. -/
theorem dollarQuoteTagAt_iff {text tag : Str} :
    dollarQuoteTagAt text = some tag ↔ IsOpeningTag tag ∧ tag <+: text := by
  by_cases dollar : text.head? = some '$'
  · obtain ⟨text, rfl⟩ := head?_eq_some_iff.mp dollar
    -- a tag in front of the text is `$$`, or its name starts with the next character
    have first (name : Str) (all : name.all nameChar = true) (front : name ++ ['$'] <+: text) :
        text.head?.any (fun ch => ch == '$' || ch.isAlpha || ch == '_') = true ↔
          ∀ ch ∈ name.head?, ch.isAlpha = true ∨ ch = '_' := by
      obtain ⟨rest, rfl⟩ := front
      cases name with
      | nil => simp
      | cons c name =>
        have other : c ≠ '$' := by
          rintro rfl
          simp [nameChar] at all
        simp [other]
    rw [dollarQuoteTagAt_cons]
    constructor
    · intro found
      split at found
      · rename_i opens
        obtain ⟨_, tail, rfl⟩ := map_eq_some_iff.mp found
        obtain ⟨⟨name, rfl, all⟩, front⟩ := dollarQuoteTagTail_iff.mp tail
        exact ⟨⟨name, rfl, all, (first name all front).mp opens⟩,
          cons_prefix_cons.mpr ⟨rfl, front⟩⟩
      · cases found
    · rintro ⟨⟨name, rfl, all, letter⟩, front⟩
      have front := (cons_prefix_cons.mp front).2
      rw [if_pos ((first name all front).mpr letter),
        dollarQuoteTagTail_iff.mpr ⟨⟨name, rfl, all⟩, front⟩]
      rfl
  · refine iff_of_false ?_ ?_
    · unfold dollarQuoteTagAt
      split
      · exact absurd rfl dollar
      · simp
    · rintro ⟨⟨name, rfl, -⟩, rest, rfl⟩
      exact dollar rfl

theorem IsOpeningTag.isTag {tag : Str} (opens : IsOpeningTag tag) : IsTag tag := by
  obtain ⟨name, same, all, -⟩ := opens
  exact ⟨name, same, all⟩

section

variable {text tag : Str} (after : Str) (fits : tag.length ≤ text.length)
include fits

theorem isPrefixOf_append : tag.isPrefixOf (text ++ after) = tag.isPrefixOf text := by
  rw [Bool.eq_iff_iff, isPrefixOf_iff_prefix, isPrefixOf_iff_prefix]
  exact isPrefix_append_of_length fits

theorem dollarQuoteTagAt_append :
    dollarQuoteTagAt (text ++ after) = some tag ↔ dollarQuoteTagAt text = some tag := by
  rw [dollarQuoteTagAt_iff, dollarQuoteTagAt_iff, ← isPrefixOf_iff_prefix,
    isPrefixOf_append after fits, isPrefixOf_iff_prefix]

end

/-- More text after the chunk only matters for a tag that runs into it. -/
theorem dollarQuoteTagAt_append_cases (text after : Str) :
    dollarQuoteTagAt (text ++ after) = dollarQuoteTagAt text ∨
      ∃ tag, dollarQuoteTagAt (text ++ after) = some tag ∧ text.length < tag.length := by
  cases whole : dollarQuoteTagAt (text ++ after) with
  | none =>
    left
    cases part : dollarQuoteTagAt text with
    | none => rfl
    | some tag =>
      have := (dollarQuoteTagAt_append after (dollarQuoteTagAt_iff.mp part).2.length_le).mpr part
      rw [whole] at this
      cases this
  | some tag =>
    by_cases fits : tag.length ≤ text.length
    · left
      rw [(dollarQuoteTagAt_append after fits).mp whole]
    · exact .inr ⟨tag, rfl, by omega⟩

variable (s : SqlStatementSplitter) (ch : Char) (rest after : Str)

theorem dollarBranch_append :
    s.dollarBranch ch (rest ++ after) = s.dollarBranch ch rest ∨
      ∃ tag, s.dollarBranch ch (rest ++ after) = .dollarOpen tag ∧ rest.length + 1 < tag.length := by
  unfold dollarBranch
  cases s.options.supportsDollarQuotedStrings with
  | false => exact .inl rfl
  | true =>
    rcases dollarQuoteTagAt_append_cases (ch :: rest) after with same | ⟨tag, whole, long⟩
    · left
      rw [← same, cons_append]
    rw [cons_append] at whole
    rw [whole]
    by_cases opens : s.customDelimiter.isNone && !s.onDelimiterLine
    · exact .inr ⟨tag, by simp only [opens, if_true], by simpa using long⟩
    · left
      simp only [opens]
      cases dollarQuoteTagAt (ch :: rest) <;> rfl

/-- A turn that is not the last of the chunk looks past the chunk only along a dollar tag. -/
theorem branch_append (more : rest ≠ []) :
    s.branch ch (rest ++ after) = s.branch ch rest ∨
      ∃ tag, (s.branch ch (rest ++ after) = .dollarOpen tag ∨
        s.branch ch (rest ++ after) = .dollarClose tag) ∧ rest.length + 1 < tag.length := by
  obtain ⟨next, rest, rfl⟩ := exists_cons_of_ne_nil more
  unfold branch
  cases s.dollarQuoteTag with
  | some tag =>
    by_cases fits : tag.length ≤ (ch :: next :: rest).length
    · left
      have same := isPrefixOf_append after fits
      rw [cons_append] at same
      simp only [same]
    · by_cases whole : tag.isPrefixOf (ch :: (next :: rest ++ after))
      · exact .inr ⟨tag, .inr (by simp only [whole, if_true]), by simpa using fits⟩
      left
      have part : tag.isPrefixOf (ch :: next :: rest) = false := by
        rw [← Bool.not_eq_true, isPrefixOf_iff_prefix]
        exact fun h => fits h.length_le
      simp only [whole, part]
  | none =>
    simp only [cons_append, head?_cons]
    cases s.commentBranch ch (some next) with
    | some branch => exact .inl rfl
    | none =>
      rcases dollarBranch_append s ch (next :: rest) after with same | ⟨tag, whole, long⟩
      · exact .inl same
      · exact .inr ⟨tag, .inl whole, long⟩

/-! ## One turn at the end of a chunk -/

theorem inCode_iff : inCode s = true ↔ s.dollarQuoteTag = none ∧ s.inLineComment = false ∧
      s.inBlockComment = false ∧ s.quoted = false := by
  simp [inCode, and_assoc]

/-- A character that no arm of the loop body singles out. -/
def ordinary (ch : Char) : Bool :=
  ch != '\'' && ch != '"' && ch != '\x60' && ch != ';' && ch != '\n'

theorem checkDelimiter_open (open_ : s.customDelimiter.any (·.isSuffixOf s.buffer) = false) :
    s.checkDelimiter ch = ({ s with previous := some ch }, []) := by
  unfold checkDelimiter
  split
  next delim hd =>
    rw [hd, any_some] at open_
    rw [if_neg (by simp [open_])]
  next => rfl

/-- Outside quotes an ordinary character is only pushed, unless it completes the delimiter. -/
theorem plainChar_kept (hch : ordinary ch = true) (code : s.quoted = false) :
    s.plainChar tokenize ch = (s.keep ch).checkDelimiter ch := by
  simp only [ordinary, Bool.and_eq_true, bne_iff_ne, ne_eq] at hch
  obtain ⟨⟨⟨⟨h1, h2⟩, h3⟩, h4⟩, h5⟩ := hch
  have matched : s.matchChar tokenize ch = (s.keep ch, []) := by
    simp [matchChar, h1, h2, h3, h4]
  have still : (s.keep ch).quoted = false := code
  simp [plainChar, matched, still, h5]

theorem plainChar_ordinary (hch : ordinary ch = true) (code : s.quoted = false)
    (open_ : completesDelimiter s ch = false) : s.plainChar tokenize ch = (s.pushChar ch, []) := by
  rw [plainChar_kept tokenize s ch hch code, checkDelimiter_open (s.keep ch) ch open_]
  rfl

attribute [local simp] commentBranch

/-- The star that follows a slash opens the comment whether or not the slash did. -/
theorem scan_star_after_slash (code : inCode s = true) :
    scan tokenize { s.pushChar '/' with inBlockComment := true } 0 ('*' :: rest) =
      scan tokenize (s.pushChar '/') 0 ('*' :: rest) := by
  obtain ⟨h1, h2, h3, h4⟩ := (inCode_iff s).mp code
  have body : branch { s.pushChar '/' with inBlockComment := true } '*' rest =
      .blockCommentBody := by
    simp [branch, h1, h2]
  have opens : (s.pushChar '/').branch '*' rest = .blockCommentOpen := by
    simp [branch, h1, h2, h3, h4]
  simp only [scan, body, opens, takeBranch]
  rfl

/-- No `--` waits for the next chunk. -/
abbrev Settled (s : SqlStatementSplitter) : Prop := s.pendingMysqlLineCommentDashes = false

theorem semicolon_pending (h : Settled s) :
    Settled (s.semicolon tokenize).1 := by
  unfold semicolon
  split_ifs <;> first | exact h | rfl

theorem matchChar_pending (h : Settled s) :
    Settled (s.matchChar tokenize ch).1 := by
  unfold matchChar
  split_ifs <;> first | exact h | exact semicolon_pending tokenize s h

theorem lineCommand_pending {s : SqlStatementSplitter} {r : Emitting}
    (h : Settled s) (command : s.lineCommand = some r) :
    Settled r.1 := by
  rcases lineCommand_cases command with ⟨_, _, rfl⟩ | ⟨_, _, rfl⟩ | ⟨_, _, rfl⟩
  all_goals exact h

theorem checkDelimiter_pending (h : Settled s) :
    Settled (s.checkDelimiter ch).1 := by
  unfold checkDelimiter
  split
  · split
    · rfl
    · exact h
  · exact h

theorem plainChar_pending (h : Settled s) :
    Settled (s.plainChar tokenize ch).1 := by
  have matched := matchChar_pending tokenize s ch h
  simp only [plainChar]
  split
  · exact matched
  split
  next s'' out command =>
    split at command
    · exact lineCommand_pending (r := (s'', out)) matched command
    · cases command
  next => exact checkDelimiter_pending _ ch matched

/-- Only the turn at the end of a chunk leaves a `--` pending. -/
theorem takeBranch_pending (b : Branch) (h : Settled s)
    (hb : b ≠ .pendingDashes) :
    Settled (s.takeBranch tokenize ch b).1.1 := by
  cases b with
  | pendingDashes => exact absurd rfl hb
  | plain => exact plainChar_pending tokenize s ch h
  | dollarClose | dollarOpen => simpa [takeBranch, pushText_eq] using h
  | dollarBody | lineCommentBody | blockCommentBody | lineCommentOpen | blockCommentOpen => exact h

theorem resolvePending_eq_self (first : Option Char) (h : Settled s) :
    s.resolvePending first = s := by
  simp [resolvePending, h]

theorem resolvePending_none : s.resolvePending none = s := by
  unfold resolvePending
  split <;> rfl

theorem not_completes_of_not_atCut {s : SqlStatementSplitter} {ch : Char} {next : Option Char}
    (ok : delimiterAtCut s ch next = false) (code : inCode s = true)
    (hidden : needsNext s ch next = true) : completesDelimiter s ch = false := by
  cases completes : completesDelimiter s ch with
  | false => rfl
  | true => rw [delimiterAtCut, code, completes, hidden] at ok; cases ok

/-- A slash at the end of a chunk, before a star: the two scans meet again at the star. -/
theorem last_turn_slash (code : inCode s = true) (ok : delimiterAtCut s '/' (some '*') = false) :
    s.branch '/' [] = .plain ∧ s.branch '/' ('*' :: rest) = .blockCommentOpen ∧
      s.plainChar tokenize '/' = (s.pushChar '/', []) := by
  obtain ⟨h1, h2, h3, h4⟩ := (inCode_iff s).mp code
  refine ⟨?_, ?_, ?_⟩
  · simp [branch, dollarBranch, h1, h2, h3, h4]
  · simp [branch, h1, h2, h3, h4]
  · exact plainChar_ordinary tokenize s '/' (by decide) h4
      (not_completes_of_not_atCut ok code (by simp [needsNext]))

variable (next : Char)

/-- A second dash at the end of a chunk that needs the next character to be judged. -/
theorem last_turn_dashes (rest : Str) (code : inCode s = true) (dash : s.previous = some '-')
    (strict : s.options.requiresWhitespaceAfterLineCommentDashes = true)
    (ok : delimiterAtCut s '-' (some next) = false) :
    s.branch '-' [] = .pendingDashes ∧
      (s.takeBranch tokenize '-' (s.branch '-' (next :: rest))).1 =
        ({ s.pushChar '-' with
          inLineComment := dashDashStartsLineComment s.options (some next) }, []) := by
  obtain ⟨h1, h2, h3, h4⟩ := (inCode_iff s).mp code
  refine ⟨by simp [branch, h1, h2, h3, h4, dash, strict], ?_⟩
  cases comment : dashDashStartsLineComment s.options (some next) with
  | true =>
    have opens : s.branch '-' (next :: rest) = .lineCommentOpen := by
      simp [branch, h1, h2, h3, h4, dash, comment]
    rw [opens, takeBranch]
  | false =>
    have plain : s.branch '-' (next :: rest) = .plain := by
      simp [branch, dollarBranch, h1, h2, h3, h4, dash, comment]
    have visible : (!isWhitespace next && !isControl next) = true := by
      simpa [dashDashStartsLineComment, strict] using comment
    have open_ := not_completes_of_not_atCut ok code (by simp [needsNext, strict, dash, visible])
    rw [plain, takeBranch, plainChar_ordinary tokenize s '-' (by decide) h4 open_]
    simp [pushChar, h2]

theorem dollarBranch_ne_pending : s.dollarBranch ch rest ≠ .pendingDashes := by
  unfold dollarBranch
  split
  · split <;> simp
  · simp

theorem branch_ne_pending (rest : Str) : s.branch ch (next :: rest) ≠ .pendingDashes := by
  unfold branch
  split
  · split <;> simp
  split
  next branch comment =>
    rintro rfl
    unfold commentBranch at comment
    split_ifs at comment <;> simp_all
  next => exact dollarBranch_ne_pending s ch _

/-- Except for a slash and for a second dash, the next character is not looked at. -/
theorem commentBranch_next (slash : ¬ (ch = '/' ∧ next = '*'))
    (dashes : ¬ (s.previous = some '-' ∧ ch = '-' ∧
      s.options.requiresWhitespaceAfterLineCommentDashes = true)) :
    s.commentBranch ch (some next) = s.commentBranch ch none := by
  by_cases dash : s.previous = some '-' ∧ ch = '-'
  · have lax : s.options.requiresWhitespaceAfterLineCommentDashes = false := by
      rw [← Bool.not_eq_true]
      exact fun strict => dashes ⟨dash.1, dash.2, strict⟩
    simp [dash, lax, dashDashStartsLineComment]
  · have noDash : (s.previous == some '-' && ch == '-') = false := by
      simpa using dash
    have noSlash : (ch == '/' && next == '*') = false := by
      simpa using slash
    simp [noDash, noSlash]

theorem commentBranch_masked (next : Option Char) (outside : s.dollarQuoteTag = none)
    (masked : ¬ inCode s = true) : s.commentBranch ch next = s.commentBranch ch none := by
  rw [inCode_iff] at masked
  unfold commentBranch
  cases line : s.inLineComment with
  | true => rfl
  | false =>
    cases block : s.inBlockComment with
    | true => rfl
    | false =>
      have quoted : s.quoted = true := by simpa [outside, line, block] using masked
      simp [quoted]

/-- A closing tag that ends with the chunk is seen without the text after it. -/
theorem branch_last_inDollar (tag : Str) (inDollar : s.dollarQuoteTag = some tag)
    (fits : (s.takeBranch tokenize ch (s.branch ch after)).2 = 0) :
    s.branch ch after = s.branch ch [] := by
  simp only [branch, inDollar] at fits ⊢
  by_cases closes : tag.isPrefixOf (ch :: after)
  · have short : tag.length ≤ [ch].length := by
      simp only [closes, if_true, takeBranch] at fits
      simp only [length_singleton]
      omega
    have part := isPrefixOf_append after short
    rw [singleton_append, closes] at part
    simp only [closes, ← part]
  · have part : ¬ tag.isPrefixOf [ch] := by
      rw [ isPrefixOf_iff_prefix] at closes ⊢
      exact fun h => closes (h.trans (prefix_append [ch] _))
    simp only [closes, part]

/-- Where no comment opener is in question, the text after the chunk is not looked at. -/
theorem branch_last (rest : Str) (outside : s.dollarQuoteTag = none)
    (fits : (s.takeBranch tokenize ch (s.branch ch (next :: rest))).2 = 0)
    (comment : s.commentBranch ch (some next) = s.commentBranch ch none) :
    s.branch ch (next :: rest) = s.branch ch [] := by
  simp only [branch, outside, head?_cons, head?_nil, comment] at fits ⊢
  cases hc : s.commentBranch ch none with
  | some branch => rfl
  | none =>
    rcases dollarBranch_append s ch [] (next :: rest) with same | ⟨tag, whole, long⟩
    · exact same
    rw [nil_append] at whole
    simp only [hc, whole, takeBranch] at fits
    omega

/-- The last turn before a cut: what it emits, and where the scan of the rest goes. -/
theorem last_turn (settled : Settled s)
    (fits : (s.takeBranch tokenize ch (s.branch ch after)).2 = 0)
    (ok : delimiterAtCut s ch after.head? = false) : let whole := (s.takeBranch tokenize ch (s.branch ch after)).1
    let chunk := (s.takeBranch tokenize ch (s.branch ch [])).1
    whole.2 = chunk.2 ∧
      scan tokenize whole.1 0 after = scan tokenize (chunk.1.resolvePending after.head?) 0 after := by
  have same (h : s.branch ch after = s.branch ch []) (hb : s.branch ch [] ≠ .pendingDashes) :
      (s.takeBranch tokenize ch (s.branch ch after)).1.2 =
          (s.takeBranch tokenize ch (s.branch ch [])).1.2 ∧
        scan tokenize (s.takeBranch tokenize ch (s.branch ch after)).1.1 0 after =
          scan tokenize ((s.takeBranch tokenize ch (s.branch ch [])).1.1.resolvePending
            after.head?) 0 after := by
    rw [h, resolvePending_eq_self _ _ (takeBranch_pending tokenize s ch _ settled hb)]
    exact ⟨rfl, rfl⟩
  cases after with
  | nil => exact ⟨rfl, by rw [head?_nil, resolvePending_none]⟩
  | cons next rest =>
    cases hd : s.dollarQuoteTag with
    | some tag =>
      refine same (branch_last_inDollar tokenize s ch _ tag hd fits) ?_
      simp only [branch, hd]
      split <;> simp
    | none =>
      by_cases slash : inCode s = true ∧ ch = '/' ∧ next = '*'
      · obtain ⟨code, rfl, rfl⟩ := slash
        obtain ⟨chunk, whole, pushed⟩ := last_turn_slash tokenize s rest code ok
        have kept : Settled (s.pushChar '/') := settled
        simp only [chunk, whole, takeBranch, pushed, resolvePending_eq_self _ _ kept, true_and]
        exact scan_star_after_slash tokenize s rest code
      · by_cases dashes : inCode s = true ∧ s.previous = some '-' ∧ ch = '-' ∧
            s.options.requiresWhitespaceAfterLineCommentDashes = true
        · obtain ⟨code, dash, rfl, strict⟩ := dashes
          obtain ⟨chunk, whole⟩ := last_turn_dashes tokenize s next rest code dash strict ok
          have resolved : resolvePending { s.pushChar '-' with
                pendingMysqlLineCommentDashes := true } (some next) =
              { s.pushChar '-' with
                inLineComment := dashDashStartsLineComment s.options (some next) } := by
            simp [resolvePending, pushChar, settled]
          simp only [chunk, whole]
          exact ⟨rfl, congrArg (scan tokenize · 0 (next :: rest)) resolved.symm⟩
        · have comment : s.commentBranch ch (some next) = s.commentBranch ch none := by
            by_cases code : inCode s
            · exact commentBranch_next s ch next (fun h => slash ⟨code, h⟩)
                (fun h => dashes ⟨code, h⟩)
            · exact commentBranch_masked s ch (some next) hd code
          refine same (branch_last tokenize s ch next rest hd fits comment) ?_
          rw [← branch_last tokenize s ch next rest hd fits comment]
          exact branch_ne_pending s ch next rest

theorem cutOk_skip_le {s : SqlStatementSplitter} {skip : Nat} {before after : Str}
    (ok : cutOk tokenize s skip before after = true) : skip ≤ before.length := by
  induction before generalizing skip with
  | nil => cases skip <;> simp_all [cutOk]
  | cons ch before ih =>
    cases skip with
    | zero => exact Nat.zero_le _
    | succ skip => exact Nat.succ_le_succ (ih ok)

/-- Scanning a text is scanning the part before a harmless cut and then the part after it. -/
theorem scan_append (skip : Nat) (before after : Str)
    (settled : Settled s)
    (ok : cutOk tokenize s skip before after = true) :
    let r := scan tokenize s skip before
    let r' := scan tokenize (r.1.resolvePending after.head?) 0 after
    scan tokenize s skip (before ++ after) = (r'.1, r.2 ++ r'.2) := by
  induction before generalizing s skip with
  | nil =>
    obtain rfl : skip = 0 := by simpa [cutOk] using ok
    simp [scan, resolvePending_eq_self s _ settled]
  | cons ch before ih =>
    cases skip with
    | succ skip => exact ih s skip settled ok
    | zero =>
      simp only [cutOk, Bool.and_eq_true, Bool.or_eq_true, Bool.not_eq_true'] at ok
      obtain ⟨atCut, ok⟩ := ok
      cases before with
      | nil =>
        have fits : (s.takeBranch tokenize ch (s.branch ch after)).2 = 0 := by
          simpa [cutOk] using ok
        have turn := last_turn tokenize s ch after settled fits (by simpa using atCut)
        simp [scan, fits, turn.1, turn.2]
      | cons next before =>
        have same : s.branch ch (next :: before ++ after) = s.branch ch (next :: before) := by
          rcases branch_append s ch (next :: before) after (by simp) with same | ⟨tag, hb, long⟩
          · exact same
          · have := cutOk_skip_le tokenize ok
            rcases hb with hb | hb <;> rw [hb] at this <;> simp only [takeBranch] at this <;> omega
        have hb := branch_ne_pending s ch next before
        rw [same] at ok
        have tail := ih _ _ (takeBranch_pending tokenize s ch _ settled hb) ok
        simp only [cons_append, scan] at tail ⊢
        rw [cons_append] at same
        rw [same, tail]
        simp

/-! ## Streams -/

/-- Outside a stream that ended in a `--`, nothing is pending at a chunk's first character. -/
theorem resolvePending_settled {first : Char} :
    Settled (s.resolvePending (some first)) := by
  unfold resolvePending
  split
  · rfl
  next h => simpa using h

theorem pushChunk_append {chunk after : Str}
    (ok : cutOk tokenize (s.resolvePending chunk.head?) 0 chunk after = true) :
    let r := s.pushChunkWithControl tokenize chunk
    let r' := r.1.pushChunkWithControl tokenize after
    s.pushChunkWithControl tokenize (chunk ++ after) = (r'.1, r.2 ++ r'.2) := by
  cases chunk with
  | nil => simp [pushChunkWithControl, resolvePending_none, scan]
  | cons ch rest =>
    exact scan_append tokenize _ 0 (ch :: rest) after (resolvePending_settled s) ok

theorem feed_flatten {chunks : List Str} (ok : cutsOk tokenize s chunks = true) :
    s.feed tokenize chunks = s.feed tokenize [chunks.flatten] := by
  induction chunks generalizing s with
  | nil => simp [feed, pushChunkWithControl, resolvePending_none, scan]
  | cons chunk chunks ih =>
    simp only [cutsOk, Bool.and_eq_true] at ok
    have joined := pushChunk_append tokenize s ok.1
    simp [feed, ih _ ok.2, joined]

end Dbx.Guarantees.ChunkIndependence
