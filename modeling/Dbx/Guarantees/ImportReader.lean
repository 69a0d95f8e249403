import Dbx.Guarantees.BinaryLiterals
import Dbx.Lib.Utf8

/-!
# The import reader and the end of the file

`takeChunks` takes the chunks of a file until `nextChunk` gives none. For a file that is
UTF-8, after the normalisation of binary literals where this is on, the chunks are the whole
text exactly if no round stalls (`takeChunks_complete_iff`). A round stalls if it does not
reach the end of the file and all bytes before the normaliser are a `_binary` keyword and
blanks: they are held back, and the empty output is taken for the end of the file.

How many bytes a read call delivers does not matter (`takeChunks_any_reads`). The text decoder is
assumed to give out the characters that are complete and to keep the bytes behind them.
-/
namespace Dbx.Guarantees.ImportReader

open Dbx.Source Dbx.Source.SqlFileStreamDecoder Dbx.Guarantees.BinaryLiterals List Option Bool
open Dbx.Lib.Text Dbx.Lib.Utf8

/-! ## The read loop -/

theorem chunkBytes_eq : sqlFileReadChunkBytes = 262144 := rfl

/-- A round has a full chunk, or all that is left of the file. -/
theorem fillPending_eq (sizes : ReadSizes) (pending reader : Bytes)
    (fits : pending.length ≤ sqlFileReadChunkBytes) :
    fillPending sizes pending reader =
      if sqlFileReadChunkBytes ≤ (pending ++ reader).length then
        ((pending ++ reader).take sqlFileReadChunkBytes,
          (pending ++ reader).drop sqlFileReadChunkBytes, false)
      else (pending ++ reader, [], true) := by
  fun_induction fillPending sizes pending reader with
  | case1 pending reader room ends =>
    have : reader = [] := by simpa using ends
    rw [this, append_nil, if_neg (by omega)]
  | case2 pending reader room more step ih =>
    have whole : pending ++ step.1 ++ step.2 = pending ++ reader := by
      simp [step, readBytes]
    rw [whole] at ih
    apply ih
    simp only [step, readBytes, length_append, length_take]
    omega
  | case3 pending reader full =>
    have exact : pending.length = sqlFileReadChunkBytes := by omega
    rw [if_pos (by rw [length_append]; omega), take_left' exact, drop_left' exact]

/-! ## Rounds of the normaliser -/

/-- What the decoder is still to get, for the bytes that are left. -/
def restOf (normalizer : Option MysqlDumpBinaryLiteralNormalizer) (bytes : Bytes) : Option Bytes :=
  match normalizer with
  | some normalizer => normalizeRest normalizer.toNormalizerState (normalizer.pending ++ bytes)
  | none => some bytes

/-- The bytes before the normaliser are a keyword and blanks, so it gives out nothing. -/
def stalls (normalizer : Option MysqlDumpBinaryLiteralNormalizer) (chunk : Bytes) : Bool :=
  normalizer.any fun normalizer =>
    awaitsLiteral normalizer.toNormalizerState (normalizer.pending ++ chunk)

/-- No round before the last one stalls. -/
def flows (normalizer : Option MysqlDumpBinaryLiteralNormalizer) (content : Bytes) : Bool :=
  if sqlFileReadChunkBytes ≤ content.length then
    let chunk := content.take sqlFileReadChunkBytes
    !stalls normalizer chunk &&
      match normalizeInput normalizer chunk false with
      | .ok (_, next) => flows next (content.drop sqlFileReadChunkBytes)
      | .error _ => true
  else true
termination_by content.length
decreasing_by
  rw [length_drop]
  rw [chunkBytes_eq] at *
  omega

/-- A round before the last one. -/
structure Round (normalizer next : Option MysqlDumpBinaryLiteralNormalizer) (chunk output : Bytes) :
    Prop where
  run : normalizeInput normalizer chunk false = .ok (output, next)
  rest : ∀ more, restOf normalizer (chunk ++ more) = (restOf next more).map (output ++ ·)

theorem exists_round (normalizer : Option MysqlDumpBinaryLiteralNormalizer) (chunk : Bytes) :
    ∃ next output, Round normalizer next chunk output := by
  cases normalizer with
  | none => exact ⟨none, chunk, rfl, fun more => rfl⟩
  | some normalizer =>
    have some := normalizeLoop_isSome normalizer.toNormalizerState (normalizer.pending ++ chunk)
    obtain ⟨⟨output, last, held⟩, run⟩ := isSome_iff_exists.mp some
    refine ⟨.some { last with pending := held }, output, ?_, ?_⟩
    · rw [normalizeInput, MysqlDumpBinaryLiteralNormalizer.normalize, run]
      rfl
    · intro more
      rw [restOf, restOf, ← append_assoc]
      exact normalizeLoop_append run more

variable {bytes : Bytes} {fuel : Nat}

namespace Round

variable {normalizer next : Option MysqlDumpBinaryLiteralNormalizer} {chunk output : Bytes}

theorem loop {normalizer : MysqlDumpBinaryLiteralNormalizer}
    (round : Round (some normalizer) next chunk output) :
    ∃ last held, normalizeLoop false normalizer.toNormalizerState (normalizer.pending ++ chunk) =
        some (output, last, held) ∧ next = some { last with pending := held } := by
  have some := normalizeLoop_isSome normalizer.toNormalizerState (normalizer.pending ++ chunk)
  obtain ⟨⟨output', last, held⟩, run⟩ := isSome_iff_exists.mp some
  have same := round.run
  rw [normalizeInput, MysqlDumpBinaryLiteralNormalizer.normalize, run] at same
  cases same
  exact ⟨last, held, run, rfl⟩

theorem output_eq_nil (round : Round normalizer next chunk output)
    (stall : stalls normalizer chunk = true) : output = [] := by
  cases normalizer with
  | none => cases stall
  | some normalizer =>
    obtain ⟨last, held, run, -⟩ := round.loop
    have waits : awaitsLiteral normalizer.toNormalizerState (normalizer.pending ++ chunk) = true :=
      stall
    cases bytes : normalizer.pending ++ chunk with
    | nil =>
      rw [bytes, normalizeLoop] at run
      cases run
      rfl
    | cons byte rest =>
      rw [bytes] at run waits
      rw [normalizeLoop, awaitsLiteral_hold waits] at run
      cases run
      rfl

theorem first_of_stalls (stall : stalls normalizer chunk = true) {more : Bytes}
    (rest : restOf normalizer (chunk ++ more) = some bytes) :
    ∃ first tail, bytes = first :: tail ∧ first < 128 := by
  cases normalizer with
  | none => cases stall
  | some normalizer =>
    rw [restOf, ← append_assoc] at rest
    exact awaitsLiteral_rest stall rest

section

variable (round : Round normalizer next chunk output) (full : sqlFileReadChunkBytes ≤ chunk.length)
include round full

/-- A full round with next to no output ends before a keyword. -/
theorem first_of_short (short : output.length ≤ 3) (high : ∀ byte ∈ output, 128 ≤ byte)
    (moves : stalls normalizer chunk = false) :
    output ≠ [] ∧ ∀ more bytes, restOf next more = some bytes →
      ∃ first tail, bytes = first :: tail ∧ first < 128 := by
  rw [chunkBytes_eq] at full
  cases normalizer with
  | none =>
    have same := round.run
    cases same
    omega
  | some normalizer =>
    obtain ⟨last, held, run, rfl⟩ := round.loop
    have waits : awaitsLiteral last held = true := by
      have length := normalizeLoop_length run high
      rw [length_append] at length
      obtain few | waits := normalizeLoop_held run
      · omega
      · exact waits
    constructor
    · intro empty
      rw [empty] at run
      obtain ⟨rfl, rfl⟩ := normalizeLoop_silent run
      have stall : stalls (some normalizer) chunk = true := waits
      rw [moves] at stall
      cases stall
    · intro more bytes rest
      exact awaitsLiteral_rest waits rest

/-- The characters that a full round completes: none exactly if it stalls. -/
theorem exists_text {kept more : Bytes} {t : Str} (incomplete : Incomplete kept)
    (rest : restOf next more = some bytes) (same : kept ++ output ++ bytes = encode t) :
    ∃ before held after, t = before ++ after ∧ kept ++ output = encode before ++ held ∧
      Incomplete held ∧ held ++ bytes = encode after ∧
      (before = [] ↔ stalls normalizer chunk = true) := by
  obtain ⟨before, held, after, split, cut, back, kind⟩ := exists_cut same
  have part : Incomplete held := by
    obtain empty | inside := kind
    · rw [empty]
      exact incomplete_nil
    · obtain ⟨c, _, suffix, -, nonempty, whole⟩ := inside
      exact ⟨c, suffix, nonempty, whole⟩
  refine ⟨before, held, after, split, cut, part, back, ?_, ?_⟩
  · rintro rfl
    by_contra moves
    rw [not_eq_true] at moves
    rw [encode_nil, nil_append] at cut
    have few := part.length_le
    rw [← cut, length_append] at few
    have high : ∀ byte ∈ output, 128 ≤ byte := fun byte member =>
      part.ge (by rw [← cut]; exact mem_append_right _ member)
    obtain ⟨nonempty, low⟩ := round.first_of_short full (by omega) high moves
    obtain ⟨first, tail, rfl, small⟩ := low more bytes rest
    obtain empty | inside := kind
    · rw [empty, append_eq_nil_iff] at cut
      exact nonempty cut.2
    -- The character that is cut goes on with the first byte of the keyword.
    obtain ⟨c, later, suffix, rfl, more, whole⟩ := inside
    rw [encode_cons, whole, append_assoc] at back
    have ends := append_cancel_left back
    cases suffix with
    | nil => exact more rfl
    | cons byte suffix =>
      obtain rfl := (cons.inj ends).1
      have large : 128 ≤ first := by
        apply @ge_of_mem_encodeChar c
        · rw [whole]
          simp
        rw [whole, ← cut]
        have := length_pos_iff.mpr nonempty
        simp only [length_append, length_cons]
        omega
      exact UInt8.not_lt.mpr large small
  · intro stall
    rw [round.output_eq_nil stall, append_nil] at cut
    have := cut_unique (t := []) incomplete part (by simpa using cut)
    exact this.1.symm

end

end Round

/-! ## One call -/

/-- An incremental UTF-8 decoder: a call gives out the characters that are complete, and the
decoder keeps the bytes behind them (`holds`) for the next call. -/
structure DecodesUtf8 (text : TextDecoder) (holds : text.State → Bytes → Prop) : Prop where
  start : holds text.start []
  piece : ∀ {σ kept input t held}, holds σ kept → Incomplete held →
    kept ++ input = encode t ++ held →
    ∃ σ', text.decode σ input false = (.inputEmpty, input.length, t, σ') ∧ holds σ' held
  last : ∀ {σ kept input t}, holds σ kept → kept ++ input = encode t →
    ∃ σ', text.decode σ input true = (.inputEmpty, input.length, t, σ')

section

variable {text : TextDecoder} {holds : text.State → Bytes → Prop} (sizes : ReadSizes)

/-- Between two calls: the bytes that the decoder keeps, and the text that is still to come. -/
structure Ready (holds : text.State → Bytes → Prop) (d : SqlFileStreamDecoder text) (kept : Bytes)
    (t : Str) : Prop where
  running : d.reachedEof = false
  decoded : d.pendingDecodedBytes = []
  fits : d.pendingBytes.length ≤ sqlFileReadChunkBytes
  state : holds d.decoder kept
  incomplete : Incomplete kept
  rest : ∃ bytes, restOf d.mysqlBinaryNormalizer (d.pendingBytes ++ d.reader) = some bytes ∧
    kept ++ bytes = encode t

/-- A chunk is given only if there is text. -/
def chunkOf (t : Str) : Option Str := if t.isEmpty then none else some t

theorem normalizeInput_last {normalizer : Option MysqlDumpBinaryLiteralNormalizer} {content : Bytes}
    (rest : restOf normalizer content = some bytes) :
    ∃ next, normalizeInput normalizer content true = .ok (bytes, next) := by
  cases normalizer with
  | none =>
    cases rest
    exact ⟨none, rfl⟩
  | some normalizer =>
    rw [restOf, normalizeRest] at rest
    rw [normalizeInput, MysqlDumpBinaryLiteralNormalizer.normalize]
    cases run : normalizeLoop true normalizer.toNormalizerState (normalizer.pending ++ content) with
    | none =>
      rw [run] at rest
      cases rest
    | some result =>
      rw [run] at rest
      dsimp only at rest ⊢
      split at rest
      · cases rest
      rename_i closed
      cases rest
      rw [if_pos rfl, if_neg closed]
      exact ⟨_, rfl⟩

section

variable {d : SqlFileStreamDecoder text} {kept : Bytes} {t : Str} (utf8 : DecodesUtf8 text holds)
  (ready : Ready holds d kept t)
include utf8 ready

theorem nextChunk_last (ends : (d.pendingBytes ++ d.reader).length < sqlFileReadChunkBytes) :
    ∃ d', nextChunk sizes d = .ok (chunkOf t, d') ∧ nextChunk sizes d' = .ok (none, d') := by
  obtain ⟨bytes, rest, same⟩ := ready.rest
  obtain ⟨next, run⟩ := normalizeInput_last rest
  obtain ⟨σ, decode⟩ := utf8.last ready.state same
  refine ⟨{ d with
    pendingBytes := []
    reader := []
    reachedEof := true
    decoder := σ
    mysqlBinaryNormalizer := next }, ?_, ?_⟩
  · have filled := fillPending_eq sizes _ d.reader ready.fits
    rw [if_neg (by omega)] at filled
    unfold nextChunk
    simp only [ready.running, filled, Bool.false_and, false_eq_true, if_false]
    unfold decodePending
    simp [run, ready.decoded, decode, chunkOf, bind, Except.bind, pure, Except.pure]
  · unfold nextChunk
    simp [ready.decoded]

theorem nextChunk_round (full : sqlFileReadChunkBytes ≤ (d.pendingBytes ++ d.reader).length) :
    ∃ before after d' held output, t = before ++ after ∧
      nextChunk sizes d = .ok (chunkOf before, d') ∧ Ready holds d' held after ∧
      d'.pendingBytes ++ d'.reader = (d.pendingBytes ++ d.reader).drop sqlFileReadChunkBytes ∧
      Round d.mysqlBinaryNormalizer d'.mysqlBinaryNormalizer
        ((d.pendingBytes ++ d.reader).take sqlFileReadChunkBytes) output ∧
      (before = [] ↔
        stalls d.mysqlBinaryNormalizer
          ((d.pendingBytes ++ d.reader).take sqlFileReadChunkBytes) = true) := by
  obtain ⟨bytes, rest, same⟩ := ready.rest
  obtain ⟨next, output, round⟩ := exists_round d.mysqlBinaryNormalizer
    ((d.pendingBytes ++ d.reader).take sqlFileReadChunkBytes)
  have whole := round.rest ((d.pendingBytes ++ d.reader).drop sqlFileReadChunkBytes)
  rw [take_append_drop, rest] at whole
  obtain ⟨later, restNext, rfl⟩ := map_eq_some_iff.mp whole.symm
  rw [← append_assoc] at same
  obtain ⟨before, held, after, split, cut, part, back, silent⟩ := round.exists_text
    (by rw [length_take]; omega) ready.incomplete restNext same
  obtain ⟨σ, decode, state⟩ := utf8.piece ready.state part cut
  refine ⟨before, after, { d with
    pendingBytes := []
    reader := (d.pendingBytes ++ d.reader).drop sqlFileReadChunkBytes
    decoder := σ
    mysqlBinaryNormalizer := next }, held, output, split, ?_, ?_, rfl, round, silent⟩
  · have filled := fillPending_eq sizes _ d.reader ready.fits
    rw [if_pos full] at filled
    unfold nextChunk
    simp only [ready.running, filled, Bool.false_and, false_eq_true, if_false]
    unfold decodePending
    simp [round.run, ready.decoded, decode, chunkOf, bind, Except.bind, pure, Except.pure]
  · exact ⟨ready.running, ready.decoded, by simp, state, part, later, restNext, back⟩

end

/-! ## The whole file -/

theorem takeChunks_none {d d' : SqlFileStreamDecoder text}
    (call : nextChunk sizes d = .ok (none, d')) :
    takeChunks sizes (fuel + 1) d = .ok (some []) := by
  rw [takeChunks, call]
  rfl

theorem takeChunks_some {d d' : SqlFileStreamDecoder text} {chunk : Str} {chunks : List Str}
    (call : nextChunk sizes d = .ok (some chunk, d'))
    (later : takeChunks sizes fuel d' = .ok (some chunks)) :
    takeChunks sizes (fuel + 1) d = .ok (some (chunk :: chunks)) := by
  rw [takeChunks, call]
  simp [bind, Except.bind, pure, Except.pure, later]

theorem chunkOf_of_ne {t : Str} (nonempty : t ≠ []) : chunkOf t = some t := by
  rw [chunkOf, if_neg (by simpa using nonempty)]

section

variable {d : SqlFileStreamDecoder text} {kept : Bytes} {t : Str} (utf8 : DecodesUtf8 text holds)
  (ready : Ready holds d kept t)
include utf8 ready

theorem takeChunks_last (ends : (d.pendingBytes ++ d.reader).length < sqlFileReadChunkBytes) :
    ∃ chunks, takeChunks sizes (fuel + 2) d = .ok (some chunks) ∧ chunks.flatten = t := by
  obtain ⟨d', call, done⟩ := nextChunk_last sizes utf8 ready ends
  by_cases empty : t = []
  · subst empty
    exact ⟨[], takeChunks_none sizes call, rfl⟩
  · rw [chunkOf_of_ne empty] at call
    exact ⟨[t], takeChunks_some sizes call (takeChunks_none sizes done), by simp⟩

/-- The run from any state between two calls: round by round, then the end of the file. -/
theorem takeChunks_ready (enough : (d.pendingBytes ++ d.reader).length + 2 ≤ fuel) :
    ∃ chunks, takeChunks sizes fuel d = .ok (some chunks) ∧
      (chunks.flatten = t ↔ flows d.mysqlBinaryNormalizer (d.pendingBytes ++ d.reader) = true) := by
  induction fuel generalizing d kept t with
  | zero => omega
  | succ fuel ih =>
    by_cases full : sqlFileReadChunkBytes ≤ (d.pendingBytes ++ d.reader).length
    · obtain ⟨before, after, d', held, output, rfl, call, next, content, round, silent⟩ :=
        nextChunk_round sizes utf8 ready full
      rw [flows, if_pos full]
      cases stall : stalls d.mysqlBinaryNormalizer
          ((d.pendingBytes ++ d.reader).take sqlFileReadChunkBytes) with
      | true =>
        obtain rfl := silent.mpr stall
        refine ⟨[], takeChunks_none sizes call, ?_⟩
        -- The keyword that is held back is text that never comes.
        obtain ⟨bytes, rest, same⟩ := ready.rest
        rw [← take_append_drop sqlFileReadChunkBytes (d.pendingBytes ++ d.reader)] at rest
        obtain ⟨first, tail, rfl, -⟩ := Round.first_of_stalls stall rest
        simp only [stall, flatten_nil, nil_append, Bool.not_true, Bool.false_and,
          false_eq_true, iff_false]
        rintro rfl
        simp at same
      | false =>
        have nonempty : before ≠ [] := fun empty => by
          rw [silent.mp empty] at stall
          cases stall
        have shorter : (d'.pendingBytes ++ d'.reader).length + 2 ≤ fuel := by
          rw [content, length_drop]
          rw [chunkBytes_eq] at full ⊢
          omega
        obtain ⟨chunks, later, complete⟩ := ih next shorter
        rw [chunkOf_of_ne nonempty] at call
        refine ⟨before :: chunks, takeChunks_some sizes call later, ?_⟩
        rw [flatten_cons, append_cancel_left_eq, complete, content]
        simp [stall, round.run]
    · obtain ⟨more, rfl⟩ : ∃ more, fuel = more + 1 := ⟨fuel - 1, by omega⟩
      obtain ⟨chunks, run, whole⟩ := takeChunks_last sizes utf8 ready (by omega)
      refine ⟨chunks, run, ?_⟩
      rw [flows, if_neg full]
      simp [whole]

end

end

/-! ## A decoder -/

open Classical in
/-- The decoder by its law: the characters before the cut, and the bytes behind them. -/
noncomputable def utf8Decoder : TextDecoder where
  State := Bytes
  start := []
  decode kept input last :=
    if h : ∃ cut : Str × Bytes, kept ++ input = encode cut.1 ++ cut.2 ∧ Incomplete cut.2 ∧
        (last = true → cut.2 = []) then
      (.inputEmpty, input.length, h.choose.1, h.choose.2)
    else (.malformed, 0, [], kept)

theorem utf8Decoder_cut {kept input : Bytes} {last : Bool} {t : Str} {held : Bytes}
    (same : kept ++ input = encode t ++ held) (part : Incomplete held)
    (whole : last = true → held = []) :
    utf8Decoder.decode kept input last = (.inputEmpty, input.length, t, held) := by
  have h : ∃ cut : Str × Bytes, kept ++ input = encode cut.1 ++ cut.2 ∧ Incomplete cut.2 ∧
      (last = true → cut.2 = []) := ⟨(t, held), same, part, whole⟩
  obtain ⟨same', part', -⟩ := h.choose_spec
  obtain ⟨text, bytes⟩ := cut_unique part' part (same'.symm.trans same)
  simp only [utf8Decoder, dif_pos h, text, bytes]

theorem utf8Decoder_decodes : DecodesUtf8 utf8Decoder fun (σ : Bytes) kept => σ = kept where
  start := rfl
  piece := by
    rintro _ kept input t held rfl part same
    exact ⟨held, utf8Decoder_cut same part nofun, rfl⟩
  last := by
    rintro _ kept input t rfl same
    exact ⟨[], utf8Decoder_cut (by rw [same, append_nil]) incomplete_nil fun _ => rfl⟩

/-! ## The script that is imported -/

/-- The normaliser of a file that was just opened. -/
def openedNormalizer (normalizes : Bool) : Option MysqlDumpBinaryLiteralNormalizer :=
  if normalizes then some .init else none

theorem ready_opened {text : TextDecoder} {holds : text.State → Bytes → Prop}
    (utf8 : DecodesUtf8 text holds) {normalizes : Bool} {front reader : Bytes} {script : Str}
    (short : front.length ≤ 3)
    (normalized : restOf (openedNormalizer normalizes) (front ++ reader) = some (encode script)) :
    Ready holds (opened normalizes front reader) [] script where
  running := rfl
  decoded := rfl
  fits := by
    exact Nat.le_trans short (by decide)
  state := utf8.start
  incomplete := incomplete_nil
  rest := ⟨encode script, normalized, rfl⟩

/-- The import takes the whole script exactly if no round stalls. -/
theorem takeChunks_complete_iff {text : TextDecoder} {holds : text.State → Bytes → Prop}
    (utf8 : DecodesUtf8 text holds) (sizes : ReadSizes) {normalizes : Bool} {front reader : Bytes}
    {script : Str} (short : front.length ≤ 3)
    (normalized : restOf (openedNormalizer normalizes) (front ++ reader) = some (encode script))
    {fuel : Nat} (enough : (front ++ reader).length + 2 ≤ fuel) :
    ∃ chunks, takeChunks sizes fuel (@opened text normalizes front reader) =
        .ok (some chunks) ∧
      (chunks.flatten = script ↔ flows (openedNormalizer normalizes) (front ++ reader) = true) :=
  takeChunks_ready sizes utf8 (ready_opened utf8 short normalized) enough

/-- A short file with a literal, cut inside its first character. -/
theorem takeChunks_complete_literal :
    ∃ chunks, takeChunks min 100 (@opened utf8Decoder true ((encode "é _binary 'a'".toList).take 1)
        ((encode "é _binary 'a'".toList).drop 1)) = .ok (some chunks) ∧
      chunks.flatten = "é X'61'".toList := by
  have normalized : restOf (openedNormalizer true) ((encode "é _binary 'a'".toList).take 1 ++
      (encode "é _binary 'a'".toList).drop 1) = some (encode "é X'61'".toList) := by
    decide +kernel
  obtain ⟨chunks, run, complete⟩ := takeChunks_complete_iff utf8Decoder_decodes min (by decide)
    normalized (show _ ≤ 100 by decide)
  refine ⟨chunks, run, complete.mpr ?_⟩
  rw [flows, if_neg (by decide)]

/-- A first round that stalls is taken for the end of the file. -/
theorem takeChunks_first_stalls {text : TextDecoder} {holds : text.State → Bytes → Prop}
    (utf8 : DecodesUtf8 text holds) {sizes : ReadSizes} {normalizes : Bool} {front reader : Bytes}
    {script : Str} (short : front.length ≤ 3)
    (normalized : restOf (openedNormalizer normalizes) (front ++ reader) = some (encode script))
    (full : sqlFileReadChunkBytes ≤ (front ++ reader).length)
    (stall : stalls (openedNormalizer normalizes)
      ((front ++ reader).take sqlFileReadChunkBytes) = true) (positive : 0 < fuel) :
    takeChunks sizes fuel (@opened text normalizes front reader) = .ok (some []) := by
  obtain ⟨fuel, rfl⟩ : ∃ more, fuel = more + 1 := ⟨fuel - 1, by omega⟩
  obtain ⟨before, after, d', held, output, -, call, -, -, -, silent⟩ :=
    nextChunk_round sizes utf8 (ready_opened utf8 short normalized) full
  obtain rfl := silent.mpr stall
  exact takeChunks_none sizes call

/-! ## A file that stalls -/

/-- A keyword and blanks. -/
def keywordAndBlanks (blanks : Nat) : Bytes := binaryKeyword ++ List.replicate blanks 32

theorem keywordAndBlanks_stalls {blanks : Nat} :
    stalls (openedNormalizer true) (keywordAndBlanks blanks) = true := by
  change awaitsLiteral MysqlDumpBinaryLiteralNormalizer.init.toNormalizerState
    (keywordAndBlanks blanks) = true
  apply awaitsLiteral_iff.mpr
  refine ⟨rfl, rfl, ?_, ?_⟩
  · rw [keywordAndBlanks, take_left' (by decide)]
    decide
  · rw [keywordAndBlanks, drop_left' (by decide), all_replicate]
    simp [isAsciiWhitespaceByte]

theorem normalizeRest_keywordAndBlanks {blanks : Nat} :
    normalizeRest MysqlDumpBinaryLiteralNormalizer.init.toNormalizerState
      (keywordAndBlanks blanks ++ asciiBytes "'a'") = some (asciiBytes "X'61'") := by
  have blank : isAsciiWhitespaceByte 32 = true := by decide
  have quote : isAsciiWhitespaceByte (asciiByte '\'') = false := by decide
  have behind : (keywordAndBlanks blanks ++ asciiBytes "'a'").drop 7 =
      replicate blanks 32 ++ asciiByte '\'' :: asciiBytes "a'" := by
    rfl
  have shape : keywordAndBlanks blanks ++ asciiBytes "'a'" = asciiByte '_' ::
      (asciiBytes "binary" ++ (replicate blanks 32 ++ asciiBytes "'a'")) := by
    rfl
  rw [shape] at behind ⊢
  have step : normalizeStep true MysqlDumpBinaryLiteralNormalizer.init.toNormalizerState
      (asciiByte '_') (asciiBytes "binary" ++ (replicate blanks 32 ++ asciiBytes "'a'")) =
      .consume (7 + blanks + 1) (asciiBytes "X'")
        ⟨.binaryQuoted, some (asciiByte '\''), false⟩ := by
    simp only [normalizeStep, MysqlDumpBinaryLiteralNormalizer.init]
    unfold normalizeNormal
    rw [if_pos (by decide), if_neg, if_pos, behind]
    · simp [blank, quote]
    · rfl
    · simp [asciiBytes]
  have rest : (asciiBytes "binary" ++ (replicate blanks 32 ++ asciiBytes "'a'")).drop
      (7 + blanks + 1 - 1) = asciiBytes "a'" := by
    have : 7 + blanks + 1 - 1 = 6 + (blanks + 1) := by omega
    rw [this, ← drop_drop, drop_left' (by decide), ← drop_drop,
      drop_left' length_replicate]
    rfl
  rw [normalizeRest_consume step, rest]
  decide +kernel

/-- A chunk that is a keyword and blanks, and the literal behind it. -/
def stallingFile : Bytes := keywordAndBlanks (sqlFileReadChunkBytes - 7) ++ asciiBytes "'a'"

theorem stallingFile_normalized :
    restOf (openedNormalizer true) (stallingFile.take 3 ++ stallingFile.drop 3) =
      some (encode "X'61'".toList) := by
  exact normalizeRest_keywordAndBlanks

/-- The normaliser holds back the whole first chunk; the import ends without a chunk. -/
theorem takeChunks_stalls :
    restOf (openedNormalizer true) (stallingFile.take 3 ++ stallingFile.drop 3) =
        some (encode "X'61'".toList) ∧
      takeChunks min (stallingFile.length + 2)
        (@opened utf8Decoder true (stallingFile.take 3) (stallingFile.drop 3)) =
      .ok (some []) := by
  refine ⟨stallingFile_normalized, ?_⟩
  have keyword : (keywordAndBlanks (sqlFileReadChunkBytes - 7)).length = sqlFileReadChunkBytes := by
    rw [keywordAndBlanks, length_append, length_replicate, chunkBytes_eq]
    rfl
  have file : stallingFile.take 3 ++ stallingFile.drop 3 =
      keywordAndBlanks (sqlFileReadChunkBytes - 7) ++ asciiBytes "'a'" := take_append_drop _ _
  apply takeChunks_first_stalls utf8Decoder_decodes (by decide) stallingFile_normalized
  · rw [file, length_append, keyword]
    exact Nat.le_add_right _ _
  · rw [file, take_left' keyword]
    exact keywordAndBlanks_stalls
  · omega

theorem takeChunks_any_reads (sizes sizes' : ReadSizes) {text : TextDecoder} (fuel : Nat)
    (d : SqlFileStreamDecoder text) : takeChunks sizes fuel d = takeChunks sizes' fuel d := by
  have filled : fillPending sizes = fillPending sizes' := by
    funext pending reader
    by_cases fits : pending.length ≤ sqlFileReadChunkBytes
    · simp only [fillPending_eq, fits]
    · unfold fillPending
      rw [if_neg (by omega), if_neg (by omega)]
  induction fuel generalizing d with
  | zero => rfl
  | succ fuel ih => simp only [takeChunks, nextChunk, filled, ih]

end Dbx.Guarantees.ImportReader
