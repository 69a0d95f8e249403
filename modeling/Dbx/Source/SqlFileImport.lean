import Dbx.Lib.Text

/-!
# Reading an SQL file in chunks

Model of `SqlFileStreamDecoder::next_chunk` (`sql_file_import.rs:647-682`), of the normaliser
of MySQL binary literals before it (684-913) and of the loop of `execute_sql_file` that takes
chunks until there is none (446-472).

The reader is the bytes that are left in the file and a function that says how many of them
a read call delivers: at least one, and never more than fit. `encoding_rs` is a parameter
(`TextDecoder`). In `normalize`, `source_byte_before` is the byte that was consumed last;
every branch of the source records it in `previous_source_byte`, so this field is read.
-/
namespace Dbx.Source

open Dbx.Lib.Text

abbrev Bytes := List UInt8

def sqlFileReadChunkBytes : Nat := 256 * 1024

/-! ## Binary literals -/

inductive MysqlDumpBinaryLiteralState where
  | normal | singleQuoted | doubleQuoted | backtickQuoted | lineComment | blockComment
  | binaryQuoted
  deriving DecidableEq, Repr

/-- The fields of the normaliser but the bytes it holds back. -/
structure NormalizerState where
  state : MysqlDumpBinaryLiteralState
  previousSourceByte : Option UInt8
  quotedEscapePending : Bool
  deriving DecidableEq, Repr

structure MysqlDumpBinaryLiteralNormalizer extends NormalizerState where
  pending : Bytes
  deriving DecidableEq, Repr

def asciiByte (c : Char) : UInt8 := c.toUInt8

def asciiBytes (text : String) : Bytes := text.toList.map asciiByte

def isAsciiWhitespaceByte (byte : UInt8) : Bool :=
  byte == 32 || byte == 9 || byte == 10 || byte == 12 || byte == 13

def isAsciiControlByte (byte : UInt8) : Bool := byte < 32 || byte == 127

def toAsciiLowercaseByte (byte : UInt8) : UInt8 := if 65 ≤ byte && byte ≤ 90 then byte + 32 else byte

def isSqlIdentifierByte (byte : Option UInt8) : Bool :=
  byte.any fun byte =>
    48 ≤ byte && byte ≤ 57 || 65 ≤ byte && byte ≤ 90 || 97 ≤ byte && byte ≤ 122 ||
      byte == asciiByte '_' || byte == asciiByte '$'

def hexDigit (value : UInt8) : UInt8 := if value < 10 then 48 + value else 55 + value

def appendHex (byte : UInt8) : Bytes := [hexDigit (byte / 16), hexDigit (byte % 16)]

def binaryKeyword : Bytes := asciiBytes "_binary"

def isBinaryKeyword (bytes : Bytes) : Bool :=
  bytes.map toAsciiLowercaseByte == binaryKeyword

/-- One turn of the loop: wait for more bytes, fail, or consume some of them. -/
inductive NormalizeStep where
  | hold
  | fail
  | consume (count : Nat) (output : Bytes) (next : NormalizerState)
  deriving DecidableEq, Repr

section

variable (eof : Bool) (s : NormalizerState)

/-- Outside quotes and comments, when the bytes start no binary literal. -/
def normalizePlain (byte : UInt8) (rest : Bytes) : NormalizeStep :=
  if byte == asciiByte '-' && rest.head? == some (asciiByte '-') then
    let after := rest.tail.head?
    if after.isNone && !eof then .hold
    else .consume 2 [byte, byte]
      { s with
        previousSourceByte := some byte
        state := if after.all fun byte => isAsciiWhitespaceByte byte || isAsciiControlByte byte then
          .lineComment else s.state }
  else if byte == asciiByte '-' && rest.isEmpty && !eof then .hold
  else if byte == asciiByte '#' then
    .consume 1 [byte] { s with previousSourceByte := some byte, state := .lineComment }
  else if byte == asciiByte '/' && rest.head? == some (asciiByte '*') then
    .consume 2 [byte, asciiByte '*']
      { s with previousSourceByte := some (asciiByte '*'), state := .blockComment }
  else if byte == asciiByte '/' && rest.isEmpty && !eof then .hold
  else .consume 1 [byte]
    { s with
      previousSourceByte := some byte
      state := if byte == asciiByte '\'' then .singleQuoted
        else if byte == asciiByte '"' then .doubleQuoted
        else if byte == asciiByte '\x60' then .backtickQuoted
        else .normal }

def normalizeNormal (byte : UInt8) (rest : Bytes) : NormalizeStep :=
  let bytes := byte :: rest
  if byte == asciiByte '_' then
    if bytes.length < 7 then if eof then normalizePlain eof s byte rest else .hold
    else if isBinaryKeyword (bytes.take 7) && !isSqlIdentifierByte s.previousSourceByte then
      let blanks := (bytes.drop 7).takeWhile isAsciiWhitespaceByte
      let after := (bytes.drop 7).dropWhile isAsciiWhitespaceByte
      if after.isEmpty && !eof then .hold
      else if after.head? == some (asciiByte '\'') then
        .consume (7 + blanks.length + 1) (asciiBytes "X'")
          { s with previousSourceByte := some (asciiByte '\''), state := .binaryQuoted }
      else normalizePlain eof s byte rest
    else normalizePlain eof s byte rest
  else normalizePlain eof s byte rest

def normalizeQuoted (quote byte : UInt8) (rest : Bytes) : NormalizeStep :=
  if byte == quote && rest.isEmpty && !eof then .hold
  else if s.quotedEscapePending then
    .consume 1 [byte] { s with previousSourceByte := some byte, quotedEscapePending := false }
  else if byte == asciiByte '\\' then
    match rest with
    | escaped :: _ => .consume 2 [byte, escaped] { s with previousSourceByte := some escaped }
    | [] =>
      .consume 1 [byte]
        { s with
          previousSourceByte := some byte
          quotedEscapePending := if eof then s.quotedEscapePending else true }
  else if byte == quote then
    if rest.head? == some quote then
      .consume 2 [quote, quote] { s with previousSourceByte := some quote }
    else .consume 1 [quote] { s with previousSourceByte := some quote, state := .normal }
  else .consume 1 [byte] { s with previousSourceByte := some byte }

def normalizeBlockComment (byte : UInt8) (rest : Bytes) : NormalizeStep :=
  if byte == asciiByte '*' && rest.isEmpty && !eof then .hold
  else if byte == asciiByte '*' && rest.head? == some (asciiByte '/') then
    .consume 2 [byte, asciiByte '/']
      { s with previousSourceByte := some (asciiByte '/'), state := .normal }
  else .consume 1 [byte] { s with previousSourceByte := some byte }

/-- The byte that an escape of a binary literal stands for. -/
def escapedByte (escaped : UInt8) : UInt8 :=
  if escaped == asciiByte '0' then 0x00
  else if escaped == asciiByte 'b' then 0x08
  else if escaped == asciiByte 'n' then 0x0A
  else if escaped == asciiByte 'r' then 0x0D
  else if escaped == asciiByte 't' then 0x09
  else if escaped == asciiByte 'Z' then 0x1A
  else escaped

def normalizeBinary (byte : UInt8) (rest : Bytes) : NormalizeStep :=
  if byte == asciiByte '\\' then
    match rest with
    | [] => if eof then .fail else .hold
    | escaped :: _ =>
      .consume 2 (appendHex (escapedByte escaped)) { s with previousSourceByte := some escaped }
  else if byte == asciiByte '\'' && rest.isEmpty && !eof then .hold
  else if byte == asciiByte '\'' then
    if rest.head? == some (asciiByte '\'') then
      .consume 2 (appendHex byte) { s with previousSourceByte := some byte }
    else .consume 1 [byte] { s with previousSourceByte := some byte, state := .normal }
  else .consume 1 (appendHex byte) { s with previousSourceByte := some byte }

def normalizeStep (byte : UInt8) (rest : Bytes) : NormalizeStep :=
  match s.state with
  | .normal => normalizeNormal eof s byte rest
  | .singleQuoted => normalizeQuoted eof s (asciiByte '\'') byte rest
  | .doubleQuoted => normalizeQuoted eof s (asciiByte '"') byte rest
  | .backtickQuoted => normalizeQuoted eof s (asciiByte '\x60') byte rest
  | .lineComment =>
    .consume 1 [byte]
      { s with
        previousSourceByte := some byte
        state := if byte == asciiByte '\n' then .normal else .lineComment }
  | .blockComment => normalizeBlockComment eof s byte rest
  | .binaryQuoted => normalizeBinary eof s byte rest

end

/-- The loop: the output, the state and the bytes that are held back; `none` if it fails. -/
def normalizeLoop (eof : Bool) (s : NormalizerState) :
    Bytes → Option (Bytes × NormalizerState × Bytes)
  | [] => some ([], s, [])
  | byte :: rest =>
    match normalizeStep eof s byte rest with
    | .hold => some ([], s, byte :: rest)
    | .fail => none
    | .consume count output next =>
      (normalizeLoop eof next (rest.drop (count - 1))).map fun (more, last, held) =>
        (output ++ more, last, held)
termination_by bytes => bytes.length
decreasing_by
  simp only [List.length_cons, List.length_drop]
  omega

def unterminatedLiteral : Str := "Unterminated MySQL binary literal".toList

namespace MysqlDumpBinaryLiteralNormalizer

def init : MysqlDumpBinaryLiteralNormalizer where
  state := .normal
  previousSourceByte := none
  quotedEscapePending := false
  pending := []

def normalize (normalizer : MysqlDumpBinaryLiteralNormalizer) (input : Bytes) (eof : Bool) :
    Except Str (Bytes × MysqlDumpBinaryLiteralNormalizer) :=
  match normalizeLoop eof normalizer.toNormalizerState (normalizer.pending ++ input) with
  | none => .error unterminatedLiteral
  | some (output, s, held) =>
    if eof then
      if s.state == .binaryQuoted then .error unterminatedLiteral
      else .ok (output ++ held, { s with pending := [] })
    else .ok (output, { s with pending := held })

end MysqlDumpBinaryLiteralNormalizer

/-! ## Chunks -/

inductive DecoderResult where
  | inputEmpty | outputFull | malformed
  deriving DecidableEq, Repr

/-- An incremental decoder: the result, the number of bytes read and the text of one call. -/
structure TextDecoder where
  State : Type
  start : State
  decode : State → Bytes → (last : Bool) → DecoderResult × Nat × Str × State

/-- How many bytes a read call delivers, by the bytes that are left and the room for them. -/
abbrev ReadSizes := (left room : Nat) → Nat

def readBytes (sizes : ReadSizes) (reader : Bytes) (room : Nat) : Bytes × Bytes :=
  let count := max 1 (min (sizes reader.length room) (min reader.length room))
  (reader.take count, reader.drop count)

/-- Reads until there are enough bytes or the file ends; the flag tells that it ended. -/
def fillPending (sizes : ReadSizes) (pending : Bytes) (reader : Bytes) : Bytes × Bytes × Bool :=
  if pending.length < sqlFileReadChunkBytes then
    if reader.isEmpty then (pending, [], true)
    else
      let step := readBytes sizes reader (sqlFileReadChunkBytes - pending.length)
      fillPending sizes (pending ++ step.1) step.2
  else (pending, reader, false)
termination_by reader.length
decreasing_by
  rename_i _ nonempty
  have : 0 < reader.length := List.length_pos_iff.mpr (by simpa using nonempty)
  simp only [readBytes, List.length_drop]
  omega

structure SqlFileStreamDecoder (text : TextDecoder) where
  reader : Bytes
  decoder : text.State
  mysqlBinaryNormalizer : Option MysqlDumpBinaryLiteralNormalizer
  pendingBytes : Bytes
  pendingDecodedBytes : Bytes
  reachedEof : Bool

namespace SqlFileStreamDecoder

variable {text : TextDecoder} (sizes : ReadSizes)

/-- The decoder right after opening, with the bytes that were read to see the byte order mark. -/
def opened (normalizes : Bool) (front reader : Bytes) : SqlFileStreamDecoder text where
  reader := reader
  decoder := text.start
  mysqlBinaryNormalizer := if normalizes then some .init else none
  pendingBytes := front
  pendingDecodedBytes := []
  reachedEof := false

def invalidEncoding : Str := "Unsupported or invalid SQL file encoding".toList

/-- The bytes for the decoder, of the bytes that were read. -/
def normalizeInput (normalizer : Option MysqlDumpBinaryLiteralNormalizer) (input : Bytes)
    (eof : Bool) : Except Str (Bytes × Option MysqlDumpBinaryLiteralNormalizer) :=
  match normalizer with
  | some normalizer => do
    let (output, next) ← normalizer.normalize input eof
    pure (output, some next)
  | none => pure (input, none)

/-- The part of `next_chunk` behind the read loop. -/
def decodePending (d : SqlFileStreamDecoder text) :
    Except Str (Option Str × SqlFileStreamDecoder text) := do
  let (normalized, normalizer) ←
    normalizeInput d.mysqlBinaryNormalizer d.pendingBytes d.reachedEof
  let input := d.pendingDecodedBytes ++ normalized
  let (result, read, output, decoder) := text.decode d.decoder input d.reachedEof
  let next : SqlFileStreamDecoder text :=
    { d with
      decoder := decoder
      mysqlBinaryNormalizer := normalizer
      pendingBytes := []
      pendingDecodedBytes := input.drop read }
  match result with
  | .inputEmpty => pure (if output.isEmpty then none else some output, next)
  | .outputFull => pure (some output, next)
  | .malformed => .error invalidEncoding

def nextChunk (d : SqlFileStreamDecoder text) :
    Except Str (Option Str × SqlFileStreamDecoder text) :=
  if d.reachedEof && d.pendingBytes.isEmpty && d.pendingDecodedBytes.isEmpty then .ok (none, d)
  else
    let filled :=
      if d.reachedEof then (d.pendingBytes, d.reader, true)
      else fillPending sizes d.pendingBytes d.reader
    decodePending
      { d with pendingBytes := filled.1, reader := filled.2.1, reachedEof := filled.2.2 }

/-- The chunks that the import loop takes, at most `fuel` of them: `none` if it would go on. -/
def takeChunks : (fuel : Nat) → SqlFileStreamDecoder text → Except Str (Option (List Str))
  | 0, _ => .ok none
  | fuel + 1, d => do
    match ← nextChunk sizes d with
    | (none, _) => .ok (some [])
    | (some chunk, next) => return (← takeChunks fuel next).map (chunk :: ·)

end SqlFileStreamDecoder

end Dbx.Source
