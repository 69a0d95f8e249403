import Dbx.Lib.Delimited
import Dbx.Source.DatabaseType
import Dbx.Source.Json

/-!
# Literals of a data transfer

Model of `escape_value_typed` (`crates/dbx-core/src/transfer.rs:2525-2625`), which writes a
cell into the statement of a transfer, with the literals it chooses from: the texts of
PostgreSQL (905-907, 1240-1269), its arrays (2824-2861) and those of ClickHouse (2863-2899),
integers that arrive with a zero fraction (1294-1363), binary columns (2664-2722), numbers
and bits of MySQL (1851-1898, 2626-2662) and its temporal texts (2901-3023).

Parameters: which texts `str::parse` reads as a finite `f64`, and the temporal literals of
SQL Server and Oracle. Column types and values are compared character by character; the
source compares the same ASCII bytes.
-/
namespace Dbx.Source.TransferLiterals

open Dbx.Lib.Text Dbx.Lib.Delimited

/-- What is left to the standard library and to other modules. -/
structure Externals where
  /-- `value.parse::<f64>()` gives a finite number. -/
  parsesFinite : Str → Bool
  /-- `normalize_sqlserver_temporal_literal`. -/
  sqlserverTemporal : Str → Option Str → Option Str
  /-- `format_oracle_temporal_sql_literal` for an Oracle target. -/
  oracleTemporal : Str → Option Str → Option Str

/-! ## Texts -/

def singleQuotes : Quotes := ⟨'\'', '\''⟩

/-- `quote_string_literal`. -/
def quoteStringLiteral (value : Str) : Str := enclose singleQuotes value

/-- `char::is_ascii_control`. -/
def isAsciiControl (c : Char) : Bool := c.toNat < 32 || c.toNat == 127

def upperHexDigit (n : Nat) : Char := if n < 10 then Char.ofNat (48 + n) else Char.ofNat (55 + n)

/-- A character of an escape string constant. -/
def escapePostgresChar (c : Char) : Str :=
  if c = '\\' then ['\\', '\\']
  else if c = '\n' then ['\\', 'n']
  else if c = '\r' then ['\\', 'r']
  else if c = '\t' then ['\\', 't']
  else if c = '\x08' then ['\\', 'b']
  else if c = '\x0c' then ['\\', 'f']
  else if c = '\'' then ['\'', '\'']
  else if isAsciiControl c then
    ['\\', 'x', upperHexDigit (c.toNat / 16), upperHexDigit (c.toNat % 16)]
  else [c]

def quotePostgresStringLiteral (value : Str) : Str :=
  if !value.contains '\\' && !value.any isAsciiControl then quoteStringLiteral value
  else 'E' :: '\'' :: value.flatMap escapePostgresChar ++ ['\'']

/-- Backslashes and single quotes written twice, in that order. -/
def escapeBackslashQuote (value : Str) : Str := double '\'' (double '\\' value)

/-! ## Arrays -/

/-- `replace('\\', "\\\\").replace('"', "\\\"")`. -/
def escapeArrayText (value : Str) : Str :=
  (double '\\' value).flatMap fun c => if c == '"' then ['\\', '"'] else [c]

def quotedArrayText (value : Str) : Str := '"' :: escapeArrayText value ++ ['"']

mutual

def formatPgArrayElement : Json → Str
  | .null => "NULL".toList
  | .array items => '\x7b' :: joinWith [','] (formatPgArrayElements items) ++ ['\x7d']
  | .string s => quotedArrayText s
  | .number n => n.text
  | .bool b => if b then "true".toList else "false".toList
  | .object members => quotedArrayText (Json.object members).print

def formatPgArrayElements : List Json → List Str
  | [] => []
  | item :: items => formatPgArrayElement item :: formatPgArrayElements items

end

/-- `format_pg_array_sql_literal`; an empty array needs no case of its own, since nothing in
its text is escaped. -/
def formatPgArraySqlLiteral (items : List Json) : Str :=
  '\'' :: escapeBackslashQuote (formatPgArrayElement (.array items)) ++ ['\'']

mutual

def formatChArrayElement : Json → Str
  | .null => "NULL".toList
  | .array items => '[' :: joinWith [','] (formatChArrayElements items) ++ [']']
  | .string s => '\'' :: escapeBackslashQuote s ++ ['\'']
  | .number n => n.text
  | .bool b => if b then "true".toList else "false".toList
  | .object members => '\'' :: escapeBackslashQuote (Json.object members).print ++ ['\'']

def formatChArrayElements : List Json → List Str
  | [] => []
  | item :: items => formatChArrayElement item :: formatChArrayElements items

end

def formatChArraySqlLiteral (items : List Json) : Str := formatChArrayElement (.array items)

/-! ## Integers -/

/-- The lower-case type up to the first of the separators. -/
def baseTypeAt (separators : List Char) (dataType : Str) : Str :=
  (toAsciiLowercase (trim dataType)).takeWhile fun c => !separators.contains c

def isOneOf (names : List String) (text : Str) : Bool := names.any (text == ·.toList)

def isPostgresTransferDialect (databaseType : DatabaseType) : Bool :=
  databaseType == .postgres || databaseType == .kingbase

def signedBounds (bits : Nat) : Int × Int := (-(2 ^ (bits - 1) : Int), 2 ^ (bits - 1) - 1)

def postgresIntegerBounds (dataType : Str) : Option (Int × Int) :=
  let base := baseTypeAt ['(', ' '] dataType
  if isOneOf ["smallint", "int2"] base then some (signedBounds 16)
  else if isOneOf ["integer", "int4"] base then some (signedBounds 32)
  else if isOneOf ["bigint", "int8"] base then some (signedBounds 64)
  else none

def sqlserverIntegerBounds (dataType : Str) : Option (Int × Int) :=
  let base := baseTypeAt ['(', ' '] dataType
  if isOneOf ["bit"] base then some (signedBounds 128)
  else if isOneOf ["tinyint"] base then some (0, 255)
  else if isOneOf ["smallint"] base then some (signedBounds 16)
  else if isOneOf ["int", "integer"] base then some (signedBounds 32)
  else if isOneOf ["bigint"] base then some (signedBounds 64)
  else none

def integerBounds (databaseType : DatabaseType) (columnType : Option Str) : Option (Int × Int) :=
  if isPostgresTransferDialect databaseType then columnType.bind postgresIntegerBounds
  else if databaseType == .sqlServer then columnType.bind sqlserverIntegerBounds
  else none

/-- `split_once`. -/
def splitOnce (separator : Char) (text : Str) : Option (Str × Str) :=
  match text.dropWhile (· != separator) with
  | [] => none
  | _ :: behind => some (text.takeWhile (· != separator), behind)

def stripSign : Str → Str
  | '-' :: digits | '+' :: digits => digits
  | digits => digits

def digitsValue (digits : Str) : Nat := digits.foldl (fun value c => 10 * value + (c.toNat - 48)) 0

/-- The value of an integer that may have a sign. -/
def signedValue (text : Str) : Int :=
  if text.head? = some '-' then -(digitsValue (stripSign text) : Int)
  else digitsValue (stripSign text)

def isInteger (text : Str) : Bool := stripSign text != [] && (stripSign text).all Char.isDigit

/-- `normalize_integer_literal`; what does not fit into an `i128` is outside every bounds. -/
def normalizeIntegerLiteral (value : Str) (databaseType : DatabaseType) (columnType : Option Str) :
    Option Str :=
  match integerBounds databaseType columnType with
  | none => none
  | some (low, high) =>
    if value.any fun c => c == 'e' || c == 'E' then none
    else
      match splitOnce '.' value with
      | none => none
      | some (integer, fraction) =>
        if fraction == [] || !fraction.all (· == '0') || !isInteger integer then none
        else if signedValue integer < low ∨ high < signedValue integer then none
        else some integer

/-! ## Binary columns, bits and numbers -/

def isMysqlBitType (columnType : Str) : Bool :=
  let lower := toAsciiLowercase (trim columnType)
  lower == "bit".toList || "bit(".toList.isPrefixOf lower || "bit ".toList.isPrefixOf lower

def isMysqlNumericBaseType (dataType : Str) : Bool :=
  isOneOf ["tinyint", "smallint", "mediumint", "int", "integer", "bigint", "decimal", "numeric",
    "float", "double", "real", "bit", "year"] (baseTypeAt ['(', ' '] dataType)

def isMysqlNonBitNumericType (columnType : Str) : Bool :=
  isMysqlNumericBaseType columnType && !isMysqlBitType columnType

/-- Whether `parse` reads the text as an integer between the bounds; only a signed type reads a
minus sign. -/
def parsesInteger (signed : Bool) (low high : Int) (text : Str) : Bool :=
  isInteger text && (signed || text.head? != some '-') &&
    decide (low ≤ signedValue text ∧ signedValue text ≤ high)

def looksLikeNumericLiteral (ext : Externals) (raw : Str) : Bool :=
  let trimmed := trim raw
  trimmed != [] &&
    (parsesInteger true (-(2 ^ 63)) (2 ^ 63 - 1) trimmed ||
      parsesInteger false 0 (2 ^ 64 - 1) trimmed || ext.parsesFinite trimmed)

/-- The databases with the temporal and numeric texts of MySQL. -/
def isMysqlDatetimeLiteralDatabase : DatabaseType → Bool
  | .mysql | .doris | .starRocks | .goldendb | .sundb => true
  | _ => false

def formatMysqlNumericStringLiteral (ext : Externals) (value : Str) (databaseType : DatabaseType)
    (columnType : Option Str) : Option Str :=
  if isMysqlDatetimeLiteralDatabase databaseType && columnType.any isMysqlNonBitNumericType &&
      looksLikeNumericLiteral ext (trim value) then
    some (trim value)
  else none

def isBinaryTransferColumnType (columnType : Str) : Bool :=
  isOneOf ["binary", "varbinary", "blob", "tinyblob", "mediumblob", "longblob", "bytea", "image"]
    (baseTypeAt ['(', ' ', '\t', '\n'] columnType)

def isHexDigit (c : Char) : Bool :=
  c.isDigit || ('a' ≤ c && c ≤ 'f') || ('A' ≤ c && c ≤ 'F')

/-- The text behind a leading `0x` or `0X`. -/
def stripHexMark : Str → Option Str
  | '0' :: 'x' :: hex | '0' :: 'X' :: hex => some hex
  | _ => none

section

variable (value : Str) (databaseType : DatabaseType) (columnType : Option Str)

def formatPostgresBinarySqlLiteral : Option Str :=
  if databaseType == .postgres && columnType.any isBinaryTransferColumnType then
    (stripHexMark value).bind fun hex =>
      if hex.length % 2 != 0 || !hex.all isHexDigit then none
      else some ("decode('".toList ++ hex ++ "', 'hex')".toList)
  else none

def formatMysqlBinarySqlLiteral : Option Str :=
  if databaseType == .mysql && columnType.any isBinaryTransferColumnType then
    (stripHexMark (trim value)).bind fun hex =>
      if hex.all isHexDigit then some (if hex == [] then "X''".toList else "0x".toList ++ hex)
      else none
  else none

def formatSqlserverBinarySqlLiteral : Option Str :=
  if databaseType != .sqlServer then none
  else
    (columnType.filter isBinaryTransferColumnType).map fun columnType =>
      match (stripHexMark (trim value)).filter fun hex => hex.length % 2 == 0 && hex.all isHexDigit with
      | some hex => "0x".toList ++ hex
      | none => "CONVERT(".toList ++ columnType ++ ", N'".toList ++ double '\'' value ++ "')".toList

end

/-! ## Temporal texts -/

inductive TemporalKind where
  | date | time | datetime
  deriving DecidableEq, Repr

def temporalColumnKind (columnType : Option Str) : Option TemporalKind :=
  columnType.bind fun columnType =>
    let base := baseTypeAt ['(', ':', ' '] columnType
    if base == "date".toList then some .date
    else if base == "time".toList then some .time
    else if isOneOf ["datetime", "timestamp"] base then some .datetime
    else none

def isTemporalColumnType (columnType : Str) : Bool := (temporalColumnKind (some columnType)).isSome

def digitAt (value : Str) (index : Nat) : Bool := value[index]?.any Char.isDigit

def isMysqlDatetimeBase (value : Str) : Bool :=
  [0, 1, 2, 3, 5, 6, 8, 9, 11, 12, 14, 15, 17, 18].all (digitAt value) &&
    value[4]? == some '-' && value[7]? == some '-' &&
    (value[10]? == some 'T' || value[10]? == some ' ') &&
    value[13]? == some ':' && value[16]? == some ':'

def isTimezoneSuffix (value : Str) : Bool :=
  eqIgnoreAsciiCase value ['z'] ||
    value.length == 6 && (value[0]? == some '+' || value[0]? == some '-') && value[3]? == some ':' &&
      [1, 2, 4, 5].all (digitAt value)

/-- The fraction in front of the zone, cut to six digits, and the zone; `none` for a point
without digits. -/
def splitFraction : Str → Option (Str × Str)
  | '.' :: rest =>
    let digits := rest.takeWhile Char.isDigit
    if digits == [] then none else some (('.' :: digits).take 7, rest.dropWhile Char.isDigit)
  | rest => some ([], rest)

def normalizeMysqlTemporalLiteral (value : Str) (columnType : Option Str) : Option Str :=
  if value.length < 20 || !isMysqlDatetimeBase value then none
  else
    (splitFraction (value.drop 19)).bind fun (fraction, zone) =>
      if !isTimezoneSuffix zone then none
      else
        let date := value.take 10
        let time := (value.drop 11).take 8
        match temporalColumnKind columnType with
        | some .date => some date
        | some .time => some (time ++ fraction)
        | _ => some (date ++ ' ' :: time ++ fraction)

def formatLiteralString (ext : Externals) (value : Str) (databaseType : DatabaseType)
    (columnType : Option Str) : Str :=
  if databaseType == .sqlServer then (ext.sqlserverTemporal value columnType).getD value
  else if isMysqlDatetimeLiteralDatabase databaseType && columnType.all isTemporalColumnType then
    (normalizeMysqlTemporalLiteral value columnType).getD value
  else value

/-! ## A value of a cell -/

def isPostgresFamilyTarget : DatabaseType → Bool
  | .postgres | .gaussdb | .openGauss | .redshift | .kingbase | .highgo | .uxdb | .kwdb
  | .vastbase => true
  | _ => false

/-- The databases whose bit columns take `b'..'` for numbers and texts. -/
def writesBits (databaseType : DatabaseType) (columnType : Option Str) : Bool :=
  (databaseType == .mysql || databaseType == .doris || databaseType == .starRocks) &&
    columnType.any isMysqlBitType

def escapeBool (b : Bool) (databaseType : DatabaseType) (columnType : Option Str) : Str :=
  match databaseType with
  | .mysql | .sqlite | .cloudflareD1 | .duckDb | .doris | .starRocks =>
    let digit := if b then ['1'] else ['0']
    if columnType.any isMysqlBitType then "b'".toList ++ digit ++ ['\''] else digit
  | .sqlServer | .dameng => if b then ['1'] else ['0']
  | _ => if b then "TRUE".toList else "FALSE".toList

/-- A text that none of the typed literals takes. -/
def escapeText (ext : Externals) (s : Str) (databaseType : DatabaseType)
    (columnType : Option Str) : Str :=
  let literal := formatLiteralString ext s databaseType columnType
  if databaseType == .postgres then quotePostgresStringLiteral literal
  else
    let escaped :=
      if isPostgresFamilyTarget databaseType || databaseType == .sqlServer then double '\'' literal
      else escapeBackslashQuote literal
    if writesBits databaseType columnType then "b'".toList ++ escaped ++ ['\'']
    else if databaseType == .sqlServer then "N'".toList ++ escaped ++ ['\'']
    else '\'' :: escaped ++ ['\'']

def escapeString (ext : Externals) (s : Str) (databaseType : DatabaseType)
    (columnType : Option Str) : Str :=
  let oracle := databaseType == .oracle || databaseType == .oceanbaseOracle
  ((((((normalizeIntegerLiteral s databaseType columnType).or
      (formatPostgresBinarySqlLiteral s databaseType columnType)).or
      (formatMysqlBinarySqlLiteral s databaseType columnType)).or
      (formatSqlserverBinarySqlLiteral s databaseType columnType)).or
      (formatMysqlNumericStringLiteral ext s databaseType columnType)).or
      (if oracle then ext.oracleTemporal s columnType else none)).getD
    (escapeText ext s databaseType columnType)

def escapeValueTyped (ext : Externals) (value : Json) (databaseType : DatabaseType)
    (columnType : Option Str) : Str :=
  match value with
  | .null => "NULL".toList
  | .bool b => escapeBool b databaseType columnType
  | .number n =>
    match normalizeIntegerLiteral n.text databaseType columnType with
    | some integer => integer
    | none =>
      if writesBits databaseType columnType then "b'".toList ++ n.text ++ ['\''] else n.text
  | .string s => escapeString ext s databaseType columnType
  | .array items =>
    if databaseType == .clickHouse || databaseType == .databend then formatChArraySqlLiteral items
    else formatPgArraySqlLiteral items
  | .object members => '\'' :: escapeBackslashQuote (Json.object members).print ++ ['\'']

end Dbx.Source.TransferLiterals
